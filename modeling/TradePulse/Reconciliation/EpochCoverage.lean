/-
**Each fill in one epoch.**

The fills of a coin come in through `record_gross_fill` alone.  Its epochs then divide the intents
among themselves, and each of them declares exactly the fills of its intents: reserving adds an
intent that has no fill yet, recording adds a fill to the epoch of its intent, and a finalisation
declares what the tables hold, which is what was declared before.

Main definitions:

* `ownFills`, `Declares` — the fills on record of an epoch's intents, and an epoch that declares
  them;
* `Accounted` — the invariant: the epochs of a coin divide its intents and declare its fills;
* `Enters` — runs in which the fills of the coin come in through `record_gross_fill`.

Main results:

* `Accounted.saved` — what the write of an epoch has to keep;
* `accounted_step` — the step lemma, with what an epoch that gains a fill is left as;
* `epochs_cover_each_fill_once` — **every fill is in one epoch, and each epoch adds up**.
-/

import TradePulse.Reconciliation.NeverSent

set_option autoImplicit false

namespace TradePulse

namespace Epochs

open Process Storage

/-! ### What an epoch declares -/

/-- The fills on record of an epoch's intents. -/
def ownFills (w : Accounts) (e : AccountingEpoch) : List Fill :=
  (assetFills w e.canonicalAssetKey).filter fun f => f.tradeIntentId ∈ e.tradeIntentIds

/-- An epoch declares the fills of its intents, each once, and their quantity. -/
structure Declares (w : Accounts) (e : AccountingEpoch) : Prop where
  fills : e.fillIds.Perm ((ownFills w e).map fun f => f.fillId)
  gross : e.grossFilledQuantity = ((ownFills w e).map fun f => f.quantity).sum

/-- No epoch of another instrument has the identity of this one. -/
def Owns (w : Accounts) (e : AccountingEpoch) : Prop :=
  ∀ x ∈ w.epochs, x.accountingEpochId = e.accountingEpochId →
    x.canonicalAssetKey = e.canonicalAssetKey

/-- The epochs of an instrument, but for the one with the given identity, divide the intents among
themselves and declare their fills. -/
structure AccountedBut (key id : String) (w : Accounts) : Prop where
  activity : ∀ f ∈ w.store.fills, f.brokerFillId = some f.fillId
  disjoint : ∀ e ∈ epochsFor w key, e.accountingEpochId ≠ id → ∀ x ∈ epochsFor w key,
    x.accountingEpochId ≠ id → ∀ t ∈ e.tradeIntentIds, t ∈ x.tradeIntentIds →
      e.accountingEpochId = x.accountingEpochId
  declares : ∀ e ∈ epochsFor w key, e.accountingEpochId ≠ id → Declares w e

/-- **The invariant.**  The epochs of an instrument divide its intents among themselves, every fill
has one, and each epoch declares its fills. -/
structure Accounted (key : String) (w : Accounts) : Prop where
  activity : ∀ f ∈ w.store.fills, f.brokerFillId = some f.fillId
  assigned : ∀ f ∈ assetFills w key, ∃ e ∈ epochsFor w key, f.tradeIntentId ∈ e.tradeIntentIds
  disjoint : ∀ e ∈ epochsFor w key, ∀ x ∈ epochsFor w key, ∀ t ∈ e.tradeIntentIds,
    t ∈ x.tradeIntentIds → e.accountingEpochId = x.accountingEpochId
  declares : ∀ e ∈ epochsFor w key, Declares w e

section Write

variable {w w' : Accounts} {key : String} {e : AccountingEpoch}

theorem Accounted.but (h : Accounted key w) (id : String) : AccountedBut key id w where
  activity := h.activity
  disjoint := fun e he _ x hx _ => h.disjoint e he x hx
  declares := fun e he _ => h.declares e he

theorem eq_of_epochId {x y : AccountingEpoch} (hx : x ∈ epochsFor w key) (hy : y ∈ epochsFor w key)
    (hid : x.accountingEpochId = y.accountingEpochId) : x = y :=
  Table.eq_of_recordId (mem_epochsFor.1 hx).1 (mem_epochsFor.1 hy).1 hid

theorem assetFills_congr (hfills : w'.store.fills = w.store.fills) (key : String) :
    assetFills w' key = assetFills w key := by
  unfold assetFills
  rw [hfills]

theorem Declares.congr {x : AccountingEpoch} (h : Declares w e)
    (hfills : w'.store.fills = w.store.fills) (hkey : x.canonicalAssetKey = e.canonicalAssetKey)
    (hintents : x.tradeIntentIds = e.tradeIntentIds) (hids : x.fillIds.Perm e.fillIds)
    (hgross : x.grossFilledQuantity = e.grossFilledQuantity) : Declares w' x := by
  have hown : ownFills w' x = ownFills w e := by
    unfold ownFills
    rw [hkey, hintents, assetFills_congr hfills]
  exact ⟨hown ▸ hids.trans h.fills, hown ▸ hgross.trans h.gross⟩

theorem Declares.savedEpoch (h : Declares w e) (hfills : w'.store.fills = w.store.fills)
    (u : Accounts) : Declares w' (savedEpoch u e) :=
  h.congr hfills savedEpoch_canonicalAssetKey savedEpoch_tradeIntentIds
    (List.Perm.of_eq (savedEpoch_field (·.fillIds) fun _ _ _ _ => rfl))
    (savedEpoch_field (·.grossFilledQuantity) fun _ _ _ _ => rfl)

theorem Saved.mem_epochsFor (hs : Saved w e w') (hkey : e.canonicalAssetKey = key)
    {x : AccountingEpoch} : x ∈ epochsFor w' key ↔
      x = savedEpoch w e ∨ (x ∈ epochsFor w key ∧ x.accountingEpochId ≠ e.accountingEpochId) := by
  rw [Epochs.mem_epochsFor, hs.mem, Epochs.mem_epochsFor]
  constructor
  · rintro ⟨rfl | ⟨hx, hne⟩, hk⟩
    · exact .inl rfl
    · exact .inr ⟨⟨hx, hk⟩, hne⟩
  · rintro (rfl | ⟨⟨hx, hk⟩, hne⟩)
    · exact ⟨.inl rfl, savedEpoch_canonicalAssetKey.trans hkey⟩
    · exact ⟨.inr ⟨hx, hne⟩, hk⟩

theorem Saved.mem_epochsFor_of_ne (hs : Saved w e w') (howns : Owns w e)
    (hkey : e.canonicalAssetKey ≠ key) {x : AccountingEpoch} :
    x ∈ epochsFor w' key ↔ x ∈ epochsFor w key := by
  rw [Epochs.mem_epochsFor, hs.mem, Epochs.mem_epochsFor]
  constructor
  · rintro ⟨rfl | ⟨hx, -⟩, hk⟩
    · exact absurd (savedEpoch_canonicalAssetKey.symm.trans hk) hkey
    · exact ⟨hx, hk⟩
  · rintro ⟨hx, hk⟩
    exact ⟨.inr ⟨hx, fun hid => hkey ((howns x hx hid).symm.trans hk)⟩, hk⟩

/-- **Writing an epoch** of the instrument: it has to declare its fills, its intents must be in no
other epoch, and every fill must have an epoch. -/
theorem AccountedBut.saved (h : AccountedBut key e.accountingEpochId w) (hs : Saved w e w')
    (hkey : e.canonicalAssetKey = key) (hself : Declares w e)
    (hapart : ∀ x ∈ epochsFor w key, x.accountingEpochId ≠ e.accountingEpochId →
      ∀ t ∈ x.tradeIntentIds, t ∉ e.tradeIntentIds)
    (hassigned : ∀ f ∈ assetFills w key, f.tradeIntentId ∈ e.tradeIntentIds ∨
      ∃ x ∈ epochsFor w key, x.accountingEpochId ≠ e.accountingEpochId ∧
        f.tradeIntentId ∈ x.tradeIntentIds) : Accounted key w' := by
  have hfills : w'.store.fills = w.store.fills := by rw [hs.store]
  refine { activity := ?_, assigned := ?_, disjoint := ?_, declares := ?_ }
  · rw [hfills]
    exact h.activity
  · intro f hf
    rw [assetFills_congr hfills] at hf
    rcases hassigned f hf with ht | ⟨x, hx, hne, ht⟩
    · exact ⟨_, (hs.mem_epochsFor hkey).2 (.inl rfl), savedEpoch_tradeIntentIds.symm ▸ ht⟩
    · exact ⟨x, (hs.mem_epochsFor hkey).2 (.inr ⟨hx, hne⟩), ht⟩
  · intro x hx y hy t htx hty
    rcases (hs.mem_epochsFor hkey).1 hx with rfl | ⟨hx, hxne⟩
    · rcases (hs.mem_epochsFor hkey).1 hy with rfl | ⟨hy, hyne⟩
      · rfl
      · rw [savedEpoch_tradeIntentIds] at htx
        exact absurd htx (hapart y hy hyne t hty)
    · rcases (hs.mem_epochsFor hkey).1 hy with rfl | ⟨hy, hyne⟩
      · rw [savedEpoch_tradeIntentIds] at hty
        exact absurd hty (hapart x hx hxne t htx)
      · exact h.disjoint x hx hxne y hy hyne t htx hty
  · intro x hx
    rcases (hs.mem_epochsFor hkey).1 hx with rfl | ⟨hx, hne⟩
    · exact hself.savedEpoch hfills w
    · exact (h.declares x hx hne).congr hfills rfl rfl (List.Perm.refl _) rfl

/-! ### Writes that go on from the epochs there are -/

/-- What a transaction makes of the epochs of an instrument: the invariant holds, and no epoch
loses an intent. -/
structure Grows (key : String) (w w' : Accounts) : Prop where
  accounted : Accounted key w'
  keeps : ∀ x ∈ epochsFor w key, ∃ y ∈ epochsFor w' key,
    y.accountingEpochId = x.accountingEpochId ∧ ∀ t ∈ x.tradeIntentIds, t ∈ y.tradeIntentIds

theorem Grows.refl (h : Accounted key w) : Grows key w w :=
  ⟨h, fun x hx => ⟨x, hx, rfl, fun _ ht => ht⟩⟩

theorem Grows.trans {w'' : Accounts} (h : Grows key w w') (h' : Grows key w' w'') :
    Grows key w w'' := by
  refine ⟨h'.accounted, fun x hx => ?_⟩
  obtain ⟨y, hy, hid, ht⟩ := h.keeps x hx
  obtain ⟨z, hz, hid', ht'⟩ := h'.keeps y hy
  exact ⟨z, hz, hid'.trans hid, fun t hmem => ht' t (ht t hmem)⟩

theorem Saved.keeps (hs : Saved w e w') (hkey : e.canonicalAssetKey = key)
    (hkeep : ∀ x ∈ epochsFor w key, x.accountingEpochId = e.accountingEpochId →
      ∀ t ∈ x.tradeIntentIds, t ∈ e.tradeIntentIds) :
    ∀ x ∈ epochsFor w key, ∃ y ∈ epochsFor w' key,
      y.accountingEpochId = x.accountingEpochId ∧ ∀ t ∈ x.tradeIntentIds, t ∈ y.tradeIntentIds := by
  intro x hx
  by_cases hid : x.accountingEpochId = e.accountingEpochId
  · refine ⟨savedEpoch w e, (hs.mem_epochsFor hkey).2 (.inl rfl),
      savedEpoch_accountingEpochId.trans hid.symm, fun t ht => ?_⟩
    rw [savedEpoch_tradeIntentIds]
    exact hkeep x hx hid t ht
  · exact ⟨x, (hs.mem_epochsFor hkey).2 (.inr ⟨hx, hid⟩), rfl, fun _ ht => ht⟩

/-- **Writing an epoch with intents that are new or its own.** -/
theorem Accounted.saved (h : Accounted key w) (hs : Saved w e w')
    (hkey : e.canonicalAssetKey = key) (hself : Declares w e)
    (hkeep : ∀ x ∈ epochsFor w key, x.accountingEpochId = e.accountingEpochId →
      ∀ t ∈ x.tradeIntentIds, t ∈ e.tradeIntentIds)
    (hnew : ∀ t ∈ e.tradeIntentIds, ∀ x ∈ epochsFor w key, t ∈ x.tradeIntentIds →
      x.accountingEpochId = e.accountingEpochId) : Grows key w w' := by
  refine ⟨(h.but _).saved hs hkey hself (fun x hx hne t htx hte => hne (hnew t hte x hx htx)) ?_,
    hs.keeps hkey hkeep⟩
  intro f hf
  obtain ⟨x, hx, ht⟩ := h.assigned f hf
  by_cases hid : x.accountingEpochId = e.accountingEpochId
  · exact .inl (hkeep x hx hid _ ht)
  · exact .inr ⟨x, hx, hid, ht⟩

theorem Accounted.rewritten {x : AccountingEpoch} (h : Accounted key w) (hs : Saved w e w')
    (hx : x ∈ epochsFor w key) (hid : e.accountingEpochId = x.accountingEpochId)
    (hkey : e.canonicalAssetKey = x.canonicalAssetKey)
    (hintents : e.tradeIntentIds = x.tradeIntentIds) (hself : Declares w e) : Grows key w w' := by
  refine h.saved hs (hkey.trans (Epochs.mem_epochsFor.1 hx).2) hself ?_ ?_
  · intro y hy hsame t ht
    rw [hintents, ← eq_of_epochId hy hx (hsame.trans hid)]
    exact ht
  · intro t ht y hy hty
    rw [hintents] at ht
    exact (h.disjoint y hy x hx t hty ht).trans hid.symm

/-- Writing a new epoch, or one that takes in an intent, when the intent is in no epoch. -/
theorem ownFills_of_unassigned (h : Accounted key w) {t : String}
    (hnone : ∀ x ∈ epochsFor w key, t ∉ x.tradeIntentIds) :
    ∀ f ∈ assetFills w key, f.tradeIntentId ≠ t := by
  rintro f hf rfl
  obtain ⟨x, hx, ht⟩ := h.assigned f hf
  exact hnone x hx ht

theorem Accounted.joined {x : AccountingEpoch} {t : String} (h : Accounted key w)
    (hs : Saved w (x.join t) w') (hx : x ∈ epochsFor w key)
    (hnone : ∀ y ∈ epochsFor w key, t ∉ y.tradeIntentIds) : Grows key w w' := by
  have hkey : x.canonicalAssetKey = key := (Epochs.mem_epochsFor.1 hx).2
  have hmem : ∀ s, s ∈ (x.join t).tradeIntentIds ↔ s ∈ x.tradeIntentIds ∨ s = t := by
    intro s
    simp [AccountingEpoch.join]
  have hown : ownFills w (x.join t) = ownFills w x := by
    refine List.filter_congr fun f hf => decide_eq_decide.2 ?_
    rw [hmem]
    refine or_iff_left fun heq => ?_
    exact ownFills_of_unassigned h hnone f (hkey ▸ hf) heq
  have hdeclares := h.declares x hx
  refine h.saved hs hkey ⟨hown ▸ hdeclares.fills, hown ▸ hdeclares.gross⟩ ?_ ?_
  · intro y hy hsame s hs
    rw [eq_of_epochId hy hx hsame] at hs
    exact (hmem s).2 (.inl hs)
  · intro s hsmem y hy hsy
    rcases (hmem s).1 hsmem with hsx | rfl
    · exact h.disjoint y hy x hx s hsy hsx
    · exact absurd hsy (hnone y hy)

theorem Accounted.opened {id : String} {ts : List String} (h : Accounted key w)
    (hs : Saved w e w') (he : e.accountingEpochId = id ∧ e.canonicalAssetKey = key ∧ e.tradeIntentIds = ts ∧
      e.fillIds = [] ∧ e.grossFilledQuantity = 0)
    (hfresh : w.epochs.get? id = none)
    (hnone : ∀ t ∈ ts, ∀ y ∈ epochsFor w key, t ∉ y.tradeIntentIds) : Grows key w w' := by
  obtain ⟨hid, hkey, hts, hids, hgross⟩ := he
  have hown : ownFills w e = [] := by
    refine List.filter_eq_nil_iff.2 fun f hf => ?_
    rw [hkey] at hf
    rw [hts, decide_eq_true_eq]
    exact fun hmem => ownFills_of_unassigned h (hnone _ hmem) f hf rfl
  refine h.saved hs hkey ⟨?_, ?_⟩ ?_ ?_
  · rw [hown, hids]
    exact List.Perm.refl _
  · rw [hown, hgross]
    rfl
  · intro x hx hsame
    exact absurd (hsame.trans hid)
      (Table.get?_eq_none_iff.1 hfresh x (Epochs.mem_epochsFor.1 hx).1)
  · intro t ht x hx htx
    rw [hts] at ht
    exact absurd htx (hnone t ht x hx)

theorem Accounted.elsewhere (h : Accounted key w) (hs : Saved w e w') (howns : Owns w e)
    (hkey : e.canonicalAssetKey ≠ key) : Grows key w w' := by
  have hfills : w'.store.fills = w.store.fills := by rw [hs.store]
  have hmem := fun x => hs.mem_epochsFor_of_ne (x := x) howns hkey
  refine ⟨{ activity := ?_, assigned := ?_, disjoint := ?_, declares := ?_ }, ?_⟩
  · rw [hfills]
    exact h.activity
  · intro f hf
    rw [assetFills_congr hfills] at hf
    obtain ⟨x, hx, ht⟩ := h.assigned f hf
    exact ⟨x, (hmem x).2 hx, ht⟩
  · intro x hx y hy
    exact h.disjoint x ((hmem x).1 hx) y ((hmem y).1 hy)
  · intro x hx
    exact (h.declares x ((hmem x).1 hx)).congr hfills rfl rfl (List.Perm.refl _) rfl
  · exact fun x hx => ⟨x, (hmem x).2 hx, rfl, fun _ ht => ht⟩

theorem Accounted.same (h : Accounted key w) (hepochs : w'.epochs = w.epochs)
    (hfills : w'.store.fills = w.store.fills) : Grows key w w' := by
  have hfor : epochsFor w' key = epochsFor w key := by
    unfold epochsFor
    rw [hepochs]
  refine ⟨{ activity := ?_, assigned := ?_, disjoint := ?_, declares := ?_ }, ?_⟩
  · rw [hfills]
    exact h.activity
  · rw [assetFills_congr hfills, hfor]
    exact h.assigned
  · rw [hfor]
    exact h.disjoint
  · rw [hfor]
    exact fun x hx => (h.declares x hx).congr hfills rfl rfl (List.Perm.refl _) rfl
  · rw [hfor]
    exact fun x hx => ⟨x, hx, rfl, fun _ ht => ht⟩

theorem owns_of_mem {x : AccountingEpoch} (hx : x ∈ epochsFor w key)
    (hid : e.accountingEpochId = x.accountingEpochId)
    (hkey : e.canonicalAssetKey = x.canonicalAssetKey) : Owns w e := by
  intro y hy hsame
  have heq : y = x := Table.eq_of_recordId hy (Epochs.mem_epochsFor.1 hx).1 (hsame.trans hid)
  rw [heq, hkey]

theorem owns_of_fresh (hnone : w.epochs.get? e.accountingEpochId = none) : Owns w e :=
  fun y hy hsame => absurd hsame (Table.get?_eq_none_iff.1 hnone y hy)

end Write

/-! ### The transactions -/

section Transactions

variable {w w' : Accounts} {key key' : String} {now : Instant}

theorem mem_pendingEpochs {x : AccountingEpoch} (h : x ∈ pendingEpochs w key) :
    x ∈ epochsFor w key := List.mem_of_mem_filter h

/-- No epoch lists the intent that was looked for. -/
theorem unlisted_of_find? {t : String}
    (h : ((epochsFor w key).find? fun e => decide (t ∈ e.tradeIntentIds)) = none) :
    ∀ x ∈ epochsFor w key, t ∉ x.tradeIntentIds := by
  intro x hx
  simpa using List.find?_eq_none.1 h x hx

/-- The identity of a new epoch of an intent is free. -/
theorem fresh_of_unlisted {t : String} (hid : EpochOf w key t)
    (hnone : ∀ x ∈ epochsFor w key, t ∉ x.tradeIntentIds) :
    w.epochs.get? ("crypto_epoch:" ++ t) = none := by
  refine Table.get?_eq_none_iff.2 fun x hx hsame => ?_
  obtain ⟨hkey, hlisted⟩ := hid x hx hsame
  exact hnone x (mem_epochsFor.2 ⟨hx, hkey⟩) hlisted

theorem grows_join (h : Accounted key w) {x : AccountingEpoch} {t : String}
    (hx : x ∈ epochsFor w key') (hnone : ∀ y ∈ epochsFor w key', t ∉ y.tradeIntentIds)
    (hok : saveEpoch w (x.join t) = .ok w') : Grows key w w' := by
  have hs := saved_of_saveEpoch hok
  by_cases hk : key' = key
  · subst hk
    exact h.joined hs hx hnone
  · refine h.elsewhere hs (owns_of_mem hx rfl rfl) fun hsame => hk ?_
    exact (mem_epochsFor.1 hx).2.symm.trans hsame

theorem grows_open (h : Accounted key w) {e : AccountingEpoch} {ts : List String}
    (hkey : e.canonicalAssetKey = key') (hts : e.tradeIntentIds = ts) (hids : e.fillIds = [])
    (hgross : e.grossFilledQuantity = 0) (hfresh : w.epochs.get? e.accountingEpochId = none)
    (hnone : ∀ t ∈ ts, ∀ y ∈ epochsFor w key', t ∉ y.tradeIntentIds)
    (hok : saveEpoch w e = .ok w') : Grows key w w' := by
  have hs := saved_of_saveEpoch hok
  by_cases hk : key' = key
  · subst hk
    exact h.opened hs ⟨rfl, hkey, hts, hids, hgross⟩ hfresh hnone
  · exact h.elsewhere hs (owns_of_fresh hfresh) fun hsame => hk (hkey.symm.trans hsame)

/-- **What a reservation does**: nothing, or the intent, which is in no epoch of its instrument,
joins one that is pending or gets its own. -/
theorem reserveEpoch_cases {intent : TradeIntent} {brokerQuantity : ℚ} {protective : Bool}
    {r : Option String} (hok : reserveEpoch w intent brokerQuantity protective now = .ok (r, w')) :
    w' = w ∨ (∀ y ∈ epochsFor w (assetIdentityKey intent.asset),
        intent.tradeIntentId ∉ y.tradeIntentIds) ∧
      ((∃ x ∈ epochsFor w (assetIdentityKey intent.asset),
          saveEpoch w (x.join intent.tradeIntentId) = .ok w') ∨
        ∃ quantity, saveEpoch w (newEpoch w (assetIdentityKey intent.asset)
          ("crypto_epoch:" ++ intent.tradeIntentId) now quantity [intent.tradeIntentId])
            = .ok w') := by
  unfold reserveEpoch at hok
  split at hok
  · cases hok
    exact .inl rfl
  dsimp only at hok
  split at hok
  · cases hok
    exact .inl rfl
  rename_i hown
  refine .inr ⟨unlisted_of_find? hown, ?_⟩
  split at hok
  · -- an exit of adopted inventory
    rename_i adopted hadopted
    split at hok
    · obtain ⟨u, hsave, hok⟩ := except_bind_eq_ok.1 hok
      cases hok
      have hmem := mem_pendingEpochs (List.mem_of_mem_filter (List.mem_of_getLast? hadopted))
      exact .inl ⟨adopted, hmem, hsave⟩
    · cases hok
  split at hok
  · cases hok
  split at hok
  · rename_i pending hlast
    split at hok
    · obtain ⟨u, hsave, hok⟩ := except_bind_eq_ok.1 hok
      cases hok
      exact .inl ⟨pending, mem_pendingEpochs (List.mem_of_getLast? hlast), hsave⟩
    · cases hok
  · obtain ⟨u, hsave, hok⟩ := except_bind_eq_ok.1 hok
    cases hok
    exact .inr ⟨_, hsave⟩

theorem grows_reserve {intent : TradeIntent} {brokerQuantity : ℚ} {protective : Bool}
    {r : Option String} (h : Accounted key w)
    (hid : EpochOf w (assetIdentityKey intent.asset) intent.tradeIntentId)
    (hok : reserveEpoch w intent brokerQuantity protective now = .ok (r, w')) :
    Grows key w w' ∧ w'.store.fills = w.store.fills := by
  rcases reserveEpoch_cases hok with rfl | ⟨hnone, ⟨x, hx, hsave⟩ | ⟨quantity, hsave⟩⟩
  · exact ⟨Grows.refl h, rfl⟩
  · exact ⟨grows_join h hx hnone hsave, by rw [(saved_of_saveEpoch hsave).store]⟩
  · refine ⟨grows_open h rfl rfl rfl rfl (fresh_of_unlisted hid hnone) ?_ hsave,
      by rw [(saved_of_saveEpoch hsave).store]⟩
    intro t ht
    rw [List.mem_singleton.1 ht]
    exact hnone

theorem grows_blockAsset {historyId reason : String} {pending : Bool} (h : Accounted key w)
    (hhistory : HistoryOf w key' historyId)
    (hok : blockAsset w key' historyId reason now pending = .ok w') : Grows key w w' := by
  unfold blockAsset at hok
  dsimp only at hok
  cases hlast : (epochsFor w key').getLast? with
  | some x =>
      rw [hlast] at hok
      have hx := List.mem_of_getLast? hlast
      have hs := saved_of_saveEpoch hok
      by_cases hk : key' = key
      · subst hk
        exact h.rewritten hs hx rfl rfl rfl
          ((h.declares x hx).congr rfl rfl rfl (List.Perm.refl _) rfl)
      · refine h.elsewhere hs (owns_of_mem hx rfl rfl) fun hsame => hk ?_
        exact (mem_epochsFor.1 hx).2.symm.trans hsame
  | none =>
      rw [hlast] at hok
      rw [List.getLast?_eq_none_iff] at hlast
      refine grows_open (e := (newEpoch w key' historyId now none []).block reason pending) h rfl
        rfl rfl rfl (hhistory.get?_eq_none (by simp [hlast])) ?_ hok
      exact fun t ht => nomatch ht

/-! ### Finalisation -/

/-- Buys and sells are all the fills there are. -/
theorem sideQuantity_add (fills : List Fill) :
    sideQuantity .buy fills + sideQuantity .sell fills = (fills.map fun f => f.quantity).sum := by
  unfold sideQuantity
  induction fills with
  | nil => simp
  | cons f fills ih =>
      cases hside : f.side with
      | buy =>
          simp only [List.filter_cons, hside, decide_true, if_true, List.map_cons, List.sum_cons,
            reduceCtorEq, decide_false, Bool.false_eq_true, if_false]
          rw [add_assoc, ih]
      | sell =>
          simp only [List.filter_cons, hside, decide_true, if_true, List.map_cons, List.sum_cons,
            reduceCtorEq, decide_false, Bool.false_eq_true, if_false]
          rw [← ih]
          ring

/-- A finalisation declares what the tables hold. -/
theorem declares_finalizedEpoch {p : Population} {epochs : List AccountingEpoch}
    {e : AccountingEpoch} {s : Store} (hp : p.fills = assetFills w e.canonicalAssetKey) :
    Declares w (finalizedEpoch s epochs p now e) := by
  have hselected : selectedFills p e = ownFills w e := by
    unfold selectedFills ownFills
    rw [hp]
  constructor
  · change (((selectedFills p e).map fun f => f.fillId).insertionSort (· ≤ ·)).Perm
      ((ownFills w e).map fun f => f.fillId)
    rw [hselected]
    exact List.perm_insertionSort _ _
  · change sideQuantity .buy (selectedFills p e) + sideQuantity .sell (selectedFills p e) =
      ((ownFills w e).map fun f => f.quantity).sum
    rw [sideQuantity_add, hselected]

/-- **The run lemma of a finalisation**: one epoch after the other is written again. -/
theorem grows_foldlM {p : Population} {epochs todo : List AccountingEpoch}
    (h : Accounted key w) (hp : p.fills = assetFills w key')
    (hdistinct : todo.Pairwise fun a b => a.accountingEpochId ≠ b.accountingEpochId)
    (hkeys : ∀ x ∈ todo, x.canonicalAssetKey = key') (howns : ∀ x ∈ todo, Owns w x)
    (hmem : key' = key → ∀ x ∈ todo, x ∈ epochsFor w key)
    (hfold : todo.foldlM (finalizeEpoch epochs p now) w = .ok w') : Grows key w w' := by
  induction todo generalizing w with
  | nil =>
      cases hfold
      exact Grows.refl h
  | cons e todo ih =>
      rw [List.foldlM_cons] at hfold
      obtain ⟨u, hstep, hrest⟩ := except_bind_eq_ok.1 hfold
      obtain ⟨hapart, hdistinct⟩ := List.pairwise_cons.1 hdistinct
      have hkeys' := fun x hx => hkeys x (List.mem_cons_of_mem _ hx)
      have howns' := fun x hx => howns x (List.mem_cons_of_mem _ hx)
      have hmem' := fun hk x hx => hmem hk x (List.mem_cons_of_mem _ hx)
      unfold finalizeEpoch at hstep
      split at hstep
      · -- an epoch without fills is passed over
        cases hstep
        exact ih h hp hdistinct hkeys' howns' hmem' hrest
      · have hs := saved_of_saveEpoch hstep
        have hkey := hkeys e List.mem_cons_self
        have hstore := hs.store
        have hgrows : Grows key w u := by
          by_cases hk : key' = key
          · have he := hmem hk e List.mem_cons_self
            exact h.rewritten hs he rfl rfl rfl (declares_finalizedEpoch (by rw [hp, hkey]))
          · refine h.elsewhere hs (howns e List.mem_cons_self) fun hsame => hk ?_
            exact hkey.symm.trans hsame
        refine hgrows.trans (ih hgrows.accounted ?_ hdistinct hkeys' ?_ ?_ hrest)
        · rw [hp, assetFills_congr (by rw [hstore])]
        · intro x hx y hy hsame
          rcases (hs.mem y).1 hy with rfl | ⟨hy, -⟩
          · rw [savedEpoch_accountingEpochId] at hsame
            exact absurd hsame (hapart x hx)
          · exact howns' x hx y hy hsame
        · intro hk x hx
          exact (hs.mem_epochsFor (hkey.trans hk)).2
            (.inr ⟨hmem' hk x hx, (hapart x hx).symm⟩)

theorem grows_finalize {p : Population} {historyId : String} (h : Accounted key w)
    (hhistory : HistoryOf w key' historyId)
    (hp : p.fills = assetFills w key')
    (hok : finalizePopulation w key' historyId p now = .ok w') : Grows key w w' := by
  unfold finalizePopulation at hok
  obtain ⟨inbox, -, hok⟩ := except_bind_eq_ok.1 hok
  dsimp only at hok
  have hkeys : ∀ x ∈ finalizedEpochs w key' historyId p, x.canonicalAssetKey = key' ∧ Owns w x := by
    intro x hx
    unfold finalizedEpochs at hx
    dsimp only at hx
    split at hx
    · exact ⟨(mem_epochsFor.1 hx).2, owns_of_mem hx rfl rfl⟩
    split at hx
    · obtain ⟨y, hy, rfl⟩ := List.mem_map.1 hx
      have hkey : (y.joinHistory historyId (historicalIntents w key' p)).canonicalAssetKey =
          y.canonicalAssetKey := by
        unfold AccountingEpoch.joinHistory
        split <;> rfl
      exact ⟨hkey.trans (mem_epochsFor.1 hy).2, owns_of_mem hy (joinHistory_id _ _ _) hkey⟩
    · rename_i hany
      rcases List.mem_append.1 hx with hx | hx
      · exact ⟨(mem_epochsFor.1 hx).2, owns_of_mem hx rfl rfl⟩
      · obtain rfl := List.mem_singleton.1 hx
        refine ⟨rfl, owns_of_fresh (hhistory.get?_eq_none fun y hy hsame => hany ?_)⟩
        exact List.any_eq_true.2 ⟨y, hy, by simp [hsame]⟩
  have hown : key' = key → finalizedEpochs w key' historyId p = epochsFor w key := by
    rintro rfl
    have hnone : historicalIntents w key' p = [] := by
      refine List.eq_nil_iff_forall_not_mem.2 fun t ht => ?_
      obtain ⟨⟨f, hf, rfl⟩, hun⟩ := mem_historicalIntents.1 ht
      obtain ⟨x, hx, hlisted⟩ := h.assigned f (hp ▸ hf)
      exact hun (List.mem_flatMap.2 ⟨x, hx, hlisted⟩)
    unfold finalizedEpochs
    rw [if_pos hnone]
  have hgrows : Grows key w { w with
      inbox := inbox
      populations := if p.proof ∈ w.populations then w.populations
        else w.populations ++ [p.proof] } := h.same rfl rfl
  refine hgrows.trans (grows_foldlM hgrows.accounted hp finalizedEpochs_distinct
    (fun x hx => (hkeys x hx).1) (fun x hx => (hkeys x hx).2) ?_ hok)
  intro hk x hx
  rw [hown hk] at hx
  exact hx

/-! ### Recording -/

/-- The epoch of a fill: one that is there, or a new one for an intent that is in none. -/
theorem epochOfFill_cases (w : Accounts) (fill : Fill) :
    (epochOfFill w fill ∈ epochsFor w (assetIdentityKey fill.asset) ∧
        fill.tradeIntentId ∈ (epochOfFill w fill).tradeIntentIds) ∨
      ((∀ x ∈ epochsFor w (assetIdentityKey fill.asset), fill.tradeIntentId ∉ x.tradeIntentIds) ∧
        epochOfFill w fill = newEpoch w (assetIdentityKey fill.asset)
          ("crypto_epoch:" ++ fill.tradeIntentId) fill.filledAt none [fill.tradeIntentId]) := by
  unfold epochOfFill
  dsimp only
  split
  · rename_i x hfound
    exact .inl ⟨List.mem_of_find?_eq_some hfound, by simpa using List.find?_some hfound⟩
  · rename_i hnone
    exact .inr ⟨unlisted_of_find? hnone, rfl⟩

theorem Accounted.addFill_elsewhere {fill : Fill} (h : Accounted key w)
    (hactivity : fill.brokerFillId = some fill.fillId) (hk : assetIdentityKey fill.asset ≠ key) :
    Grows key w (w.addFill fill) ∧ assetFills (w.addFill fill) key = assetFills w key := by
  have hfills : assetFills (w.addFill fill) key = assetFills w key := by
    refine (Table.ExtendedBy.createOnce (P := fun f => f = fill) w.store.fills rfl).filter_eq ?_
    rintro f rfl
    simpa using hk
  have hown : ∀ x ∈ epochsFor w key, ownFills (w.addFill fill) x = ownFills w x := by
    intro x hx
    unfold ownFills
    rw [(mem_epochsFor.1 hx).2, hfills]
  refine ⟨⟨{ activity := ?_, assigned := ?_, disjoint := h.disjoint, declares := ?_ }, ?_⟩, hfills⟩
  · intro f hf
    rcases Table.mem_createOnce.1 hf with hf | ⟨-, rfl⟩
    · exact h.activity f hf
    · exact hactivity
  · rw [hfills]
    exact h.assigned
  · intro x hx
    have hdeclares := h.declares x hx
    exact ⟨(hown x hx).symm ▸ hdeclares.fills, (hown x hx).symm ▸ hdeclares.gross⟩
  · exact fun x hx => ⟨x, hx, rfl, fun _ ht => ht⟩

/-- A fill that is new to the tables stands at the end of them. -/
theorem assetFills_addFill {fill : Fill} (h : Accounted key w)
    (hactivity : fill.brokerFillId = some fill.fillId)
    (hnew : ∀ f ∈ w.store.fills, f.fillId ≠ fill.fillId)
    (hk : assetIdentityKey fill.asset = key) :
    (w.addFill fill).store.fills.rows = w.store.fills.rows ++ [fill] ∧
      assetFills (w.addFill fill) key = assetFills w key ++ [fill] := by
  have hadmits : w.store.fills.Admits fill := by
    refine fun f hf => ⟨hnew f hf, .inr ?_⟩
    change f.brokerFillId ≠ fill.brokerFillId
    rw [h.activity f hf, hactivity]
    exact fun hsame => hnew f hf (Option.some_inj.1 hsame)
  have hrows := Table.rows_createOnce hadmits
  refine ⟨hrows, ?_⟩
  change ((w.store.fills.createOnce fill).rows).filter _ = _
  rw [hrows, List.filter_append]
  simp [assetFills, hk]

/-- **Recording a fill** of the instrument: its epoch declares it, and is not reconciled. -/
theorem grows_recordGrossFill_own {fill : Fill} (h : Accounted key w)
    (hid : EpochOf w (assetIdentityKey fill.asset) fill.tradeIntentId)
    (hactivity : fill.brokerFillId = some fill.fillId) (hk : assetIdentityKey fill.asset = key)
    (hok : recordGrossFill w fill = .ok w') :
    Grows key w w' ∧ (assetFills w' key = assetFills w key ∨
      assetFills w' key = assetFills w key ++ [fill] ∧
        ∀ y ∈ epochsFor w' key, fill.tradeIntentId ∈ y.tradeIntentIds →
          y.feeAccountingStatus ≠ .reconciledNet) := by
  subst hk
  have hcases := epochOfFill_cases w fill
  have hdeclares : Declares w (epochOfFill w fill) := by
    rcases hcases with ⟨hmem, -⟩ | ⟨hnone, heq⟩
    · exact h.declares _ hmem
    · have hown : ownFills w (epochOfFill w fill) = [] := by
        refine List.filter_eq_nil_iff.2 fun f hf => ?_
        rw [heq] at hf ⊢
        simpa [newEpoch] using ownFills_of_unassigned h hnone f hf
      constructor
      · rw [hown, heq]
        exact List.Perm.refl _
      · rw [hown, heq]
        rfl
  have hlisted : fill.tradeIntentId ∈ (epochOfFill w fill).tradeIntentIds := by
    rcases hcases with ⟨-, ht⟩ | ⟨-, heq⟩
    · exact ht
    · rw [heq]
      exact List.mem_cons_self
  have hkey : (epochOfFill w fill).canonicalAssetKey = assetIdentityKey fill.asset := by
    rcases hcases with ⟨hmem, -⟩ | ⟨-, heq⟩
    · exact (mem_epochsFor.1 hmem).2
    · rw [heq]
      rfl
  -- of the other epochs, none lists an intent of this one
  have hapart : ∀ x ∈ epochsFor w (assetIdentityKey fill.asset),
      x.accountingEpochId ≠ (epochOfFill w fill).accountingEpochId →
        ∀ t ∈ x.tradeIntentIds, t ∉ (epochOfFill w fill).tradeIntentIds := by
    intro x hx hne t htx hte
    rcases hcases with ⟨hmem, -⟩ | ⟨hnone, heq⟩
    · exact hne (h.disjoint x hx _ hmem t htx hte)
    · rw [heq] at hte
      rw [List.mem_singleton.1 hte] at htx
      exact hnone x hx htx
  have hkeep : ∀ x ∈ epochsFor w (assetIdentityKey fill.asset),
      x.accountingEpochId = (epochOfFill w fill).accountingEpochId →
        ∀ t ∈ x.tradeIntentIds, t ∈ (epochOfFill w fill).tradeIntentIds := by
    intro x hx hsame t ht
    rcases hcases with ⟨hmem, -⟩ | ⟨hnone, heq⟩
    · rw [← eq_of_epochId hx hmem hsame]
      exact ht
    · rw [heq] at hsame
      exact absurd hsame
        (Table.get?_eq_none_iff.1 (fresh_of_unlisted hid hnone) x (mem_epochsFor.1 hx).1)
  unfold recordGrossFill at hok
  obtain ⟨⟨⟩, hchanged, hok⟩ := except_bind_eq_ok.1 hok
  rw [raiseIf_eq_ok_iff] at hchanged
  -- a row with the identity of the fill is the fill, and is declared
  have hrow : ∀ f ∈ w.store.fills, f.fillId = fill.fillId →
      fill.fillId ∈ (epochOfFill w fill).fillIds := by
    intro f hf hsame
    have hget : w.store.fills.get? fill.fillId = some f := Table.get?_eq_some_iff.2 ⟨hf, hsame⟩
    rw [hget] at hchanged
    have hfields : f.toFillFields = fill.toFillFields := by simpa using hchanged
    refine hdeclares.fills.mem_iff.2 (List.mem_map.2 ⟨f, ?_, hsame⟩)
    refine List.mem_filter.2 ⟨List.mem_filter.2 ⟨hf, ?_⟩, ?_⟩
    · rw [hkey, decide_eq_true_eq, hfields]
    · rw [decide_eq_true_eq, hfields]
      exact hlisted
  dsimp only at hok
  split at hok
  · -- the fill is declared, so it is on record
    rename_i hdeclared
    cases hok
    obtain ⟨f, hf, hsame⟩ := List.mem_map.1 (hdeclares.fills.mem_iff.1 hdeclared)
    have hmem : f ∈ w.store.fills := List.mem_of_mem_filter (List.mem_of_mem_filter hf)
    have hfull : ¬ w.store.fills.Admits fill := fun hadmits => (hadmits f hmem).1 hsame
    have hstay : (w.addFill fill).store.fills = w.store.fills := Table.createOnce_of_not_admits hfull
    exact ⟨h.same rfl hstay, .inl (assetFills_congr hstay _)⟩
  · rename_i hundeclared
    obtain ⟨u, hgross, hok⟩ := except_bind_eq_ok.1 hok
    have hnew : ∀ f ∈ w.store.fills, f.fillId ≠ fill.fillId := fun f hf hsame =>
      hundeclared (hrow f hf hsame)
    obtain ⟨hrows, hfills⟩ := assetFills_addFill h hactivity hnew rfl
    have hs := saved_of_saveEpoch hgross
    have hs' := saved_of_saveEpoch hok
    -- the first write declares the fill
    have hself : Declares (w.addFill fill) ((epochOfFill w fill).addFill fill) := by
      have hown : ownFills (w.addFill fill) ((epochOfFill w fill).addFill fill) =
          ownFills w (epochOfFill w fill) ++ [fill] := by
        unfold ownFills
        change ((assetFills (w.addFill fill) (epochOfFill w fill).canonicalAssetKey).filter
          fun f => decide (f.tradeIntentId ∈ (epochOfFill w fill).tradeIntentIds)) = _
        rw [hkey, hfills, List.filter_append]
        simp [hlisted]
      constructor
      · rw [hown, List.map_append]
        exact hdeclares.fills.append (List.Perm.refl _)
      · rw [hown, List.map_append, List.sum_append]
        change (epochOfFill w fill).grossFilledQuantity + fill.quantity = _
        rw [hdeclares.gross]
        simp
    have hbut : AccountedBut (assetIdentityKey fill.asset)
        ((epochOfFill w fill).addFill fill).accountingEpochId (w.addFill fill) := by
      refine { activity := ?_, disjoint := fun x hx _ y hy _ => h.disjoint x hx y hy,
               declares := ?_ }
      · intro f hf
        rcases Table.mem_createOnce.1 hf with hf | ⟨-, rfl⟩
        · exact h.activity f hf
        · exact hactivity
      · intro x hx hne
        have hdx := h.declares x hx
        have hother : fill.tradeIntentId ∉ x.tradeIntentIds := fun ht =>
          hapart x hx hne _ ht hlisted
        have hown : ownFills (w.addFill fill) x = ownFills w x := by
          unfold ownFills
          rw [(mem_epochsFor.1 hx).2, hfills, List.filter_append]
          simp [hother]
        exact ⟨hown.symm ▸ hdx.fills, hown.symm ▸ hdx.gross⟩
    have hu : Accounted (assetIdentityKey fill.asset) u := by
      refine hbut.saved hs hkey hself hapart fun f hf => ?_
      rw [hfills] at hf
      rcases List.mem_append.1 hf with hf | hf
      · obtain ⟨x, hx, ht⟩ := h.assigned f hf
        by_cases hsame : x.accountingEpochId = (epochOfFill w fill).accountingEpochId
        · exact .inl (hkeep x hx hsame _ ht)
        · exact .inr ⟨x, hx, hsame, ht⟩
      · rw [List.mem_singleton.1 hf]
        exact .inl hlisted
    have hgrows : Grows (assetIdentityKey fill.asset) w u := ⟨hu, hs.keeps hkey hkeep⟩
    -- the second write waits for the fees
    have hsaved : savedEpoch (w.addFill fill) ((epochOfFill w fill).addFill fill) ∈
        epochsFor u (assetIdentityKey fill.asset) := (hs.mem_epochsFor hkey).2 (.inl rfl)
    have hagain := hu.rewritten hs' hsaved rfl rfl rfl
      ((hu.declares _ hsaved).congr rfl rfl rfl (List.Perm.refl _) rfl)
    have hstore : w'.store.fills = (w.addFill fill).store.fills := by rw [hs'.store, hs.store]
    refine ⟨hgrows.trans hagain, .inr ⟨(assetFills_congr hstore _).trans hfills, ?_⟩⟩
    intro y hy ht
    have hwritten := (hs'.mem_epochsFor (mem_epochsFor.1 hsaved).2).2 (.inl rfl)
    have hlisted' : fill.tradeIntentId ∈ (savedEpoch u (savedEpoch (w.addFill fill)
        ((epochOfFill w fill).addFill fill)).awaitFees).tradeIntentIds := by
      rw [savedEpoch_tradeIntentIds]
      change fill.tradeIntentId ∈ (savedEpoch (w.addFill fill)
        ((epochOfFill w fill).addFill fill)).tradeIntentIds
      rw [savedEpoch_tradeIntentIds]
      exact hlisted
    rw [eq_of_epochId hy hwritten (hagain.accounted.disjoint y hy _ hwritten _ ht hlisted'),
      savedEpoch_feeAccountingStatus]
    intro hrec
    cases hrec

theorem grows_recordGrossFill_elsewhere {fill : Fill} (h : Accounted key w)
    (hid : EpochOf w (assetIdentityKey fill.asset) fill.tradeIntentId)
    (hactivity : fill.brokerFillId = some fill.fillId) (hk : assetIdentityKey fill.asset ≠ key)
    (hok : recordGrossFill w fill = .ok w') :
    Grows key w w' ∧ assetFills w' key = assetFills w key := by
  obtain ⟨hadded, hfills⟩ := h.addFill_elsewhere hactivity hk
  have hown : (epochOfFill w fill).canonicalAssetKey = assetIdentityKey fill.asset ∧
      Owns w (epochOfFill w fill) := by
    rcases epochOfFill_cases w fill with ⟨hmem, -⟩ | ⟨hnone, heq⟩
    · exact ⟨(mem_epochsFor.1 hmem).2, owns_of_mem hmem rfl rfl⟩
    · rw [heq]
      exact ⟨rfl, owns_of_fresh (fresh_of_unlisted hid hnone)⟩
  unfold recordGrossFill at hok
  obtain ⟨⟨⟩, -, hok⟩ := except_bind_eq_ok.1 hok
  dsimp only at hok
  split at hok
  · cases hok
    exact ⟨hadded, hfills⟩
  · obtain ⟨u, hgross, hok⟩ := except_bind_eq_ok.1 hok
    have hs := saved_of_saveEpoch hgross
    have hs' := saved_of_saveEpoch hok
    have hfirst : Grows key (w.addFill fill) u := hadded.accounted.elsewhere hs hown.2
      fun hsame => hk (hown.1.symm.trans hsame)
    have hsaved : savedEpoch (w.addFill fill) ((epochOfFill w fill).addFill fill) ∈
        epochsFor u (assetIdentityKey fill.asset) := (hs.mem_epochsFor hown.1).2 (.inl rfl)
    have hsecond : Grows key u w' := hfirst.accounted.elsewhere hs' (owns_of_mem hsaved rfl rfl)
      fun hsame => hk ((mem_epochsFor.1 hsaved).2.symm.trans hsame)
    have hstore : w'.store.fills = (w.addFill fill).store.fills := by rw [hs'.store, hs.store]
    exact ⟨hadded.trans (hfirst.trans hsecond), (assetFills_congr hstore key).trans hfills⟩

/-! ### Instruments -/

/-- Every fill and every epoch is of the instrument of its intents: `assetOf` is the instrument for
which an intent was made. -/
structure Placed (assetOf : String → String) (w : Accounts) : Prop where
  fills : ∀ f ∈ w.store.fills, assetOf f.tradeIntentId = assetIdentityKey f.asset
  intents : ∀ x ∈ w.epochs, ∀ t ∈ x.tradeIntentIds, assetOf t = x.canonicalAssetKey
  declared : ∀ x ∈ w.epochs, ∀ id ∈ x.fillIds,
    ∃ f ∈ assetFills w x.canonicalAssetKey, f.fillId = id

variable {assetOf : String → String}

theorem Placed.saved {e : AccountingEpoch} (h : Placed assetOf w) (hs : Saved w e w')
    (hintents : ∀ t ∈ e.tradeIntentIds, assetOf t = e.canonicalAssetKey)
    (hdeclared : ∀ id ∈ e.fillIds, ∃ f ∈ assetFills w e.canonicalAssetKey, f.fillId = id) :
    Placed assetOf w' := by
  have hfills : w'.store.fills = w.store.fills := by rw [hs.store]
  refine { fills := hfills ▸ h.fills, intents := fun x hx => ?_, declared := fun x hx => ?_ }
  · rcases (hs.mem x).1 hx with rfl | ⟨hx, -⟩
    · rw [savedEpoch_tradeIntentIds, savedEpoch_canonicalAssetKey]
      exact hintents
    · exact h.intents x hx
  · rw [assetFills_congr hfills]
    rcases (hs.mem x).1 hx with rfl | ⟨hx, -⟩
    · rw [savedEpoch_field (·.fillIds) fun _ _ _ _ => rfl, savedEpoch_canonicalAssetKey]
      exact hdeclared
    · exact h.declared x hx

/-- An epoch is written again with its intents, or with one more. -/
theorem Placed.joined {e : AccountingEpoch} {t : String} (h : Placed assetOf w)
    (he : e ∈ epochsFor w key) (ht : assetOf t = key) (hok : saveEpoch w (e.join t) = .ok w') :
    Placed assetOf w' := by
  obtain ⟨hmem, hkey⟩ := mem_epochsFor.1 he
  refine h.saved (saved_of_saveEpoch hok) (fun s hs => ?_) (h.declared e hmem)
  rcases List.mem_append.1 hs with hs | hs
  · exact h.intents e hmem s hs
  · rw [List.mem_singleton.1 hs, ht]
    exact hkey.symm

theorem Placed.addFill {fill : Fill} (h : Placed assetOf w)
    (hplaced : assetOf fill.tradeIntentId = assetIdentityKey fill.asset) :
    Placed assetOf (w.addFill fill) := by
  refine { fills := fun f hf => ?_, intents := h.intents, declared := fun x hx id hid => ?_ }
  · rcases Table.mem_createOnce.1 hf with hf | ⟨-, rfl⟩
    · exact h.fills f hf
    · exact hplaced
  · obtain ⟨f, hf, hsame⟩ := h.declared x hx id hid
    obtain ⟨hf, hkey⟩ := List.mem_filter.1 hf
    exact ⟨f, List.mem_filter.2 ⟨Table.mem_createOnce_of_mem hf, hkey⟩, hsame⟩

theorem mem_addFill {fill : Fill} (hactivities : ∀ f ∈ w.store.fills, f.brokerFillId = some f.fillId)
    (hactivity : fill.brokerFillId = some fill.fillId)
    (hsame : ∀ f ∈ w.store.fills, f.fillId = fill.fillId → f.asset = fill.asset) :
    ∃ f ∈ assetFills (w.addFill fill) (assetIdentityKey fill.asset), f.fillId = fill.fillId := by
  by_cases hnew : ∃ f ∈ w.store.fills, f.fillId = fill.fillId
  · obtain ⟨f, hf, hid⟩ := hnew
    refine ⟨f, List.mem_filter.2 ⟨Table.mem_createOnce_of_mem hf, ?_⟩, hid⟩
    rw [decide_eq_true_eq, hsame f hf hid]
  · have hadmits : w.store.fills.Admits fill := by
      refine fun f hf => ⟨fun hid => hnew ⟨f, hf, hid⟩, .inr ?_⟩
      change f.brokerFillId ≠ fill.brokerFillId
      rw [hactivities f hf, hactivity]
      exact fun hid => hnew ⟨f, hf, Option.some_inj.1 hid⟩
    exact ⟨fill, List.mem_filter.2 ⟨Table.mem_createOnce.2 (.inr ⟨hadmits, rfl⟩), by simp⟩, rfl⟩

theorem placed_recordGrossFill {fill : Fill} (h : Placed assetOf w)
    (hactivities : ∀ f ∈ w.store.fills, f.brokerFillId = some f.fillId)
    (hactivity : fill.brokerFillId = some fill.fillId)
    (hplaced : assetOf fill.tradeIntentId = assetIdentityKey fill.asset)
    (hok : recordGrossFill w fill = .ok w') : Placed assetOf w' := by
  have hepoch : (epochOfFill w fill).canonicalAssetKey = assetIdentityKey fill.asset ∧
      (∀ t ∈ (epochOfFill w fill).tradeIntentIds, assetOf t = assetIdentityKey fill.asset) ∧
        ∀ id ∈ (epochOfFill w fill).fillIds,
          ∃ f ∈ assetFills w (assetIdentityKey fill.asset), f.fillId = id := by
    rcases epochOfFill_cases w fill with ⟨hmem, -⟩ | ⟨-, heq⟩
    · obtain ⟨hmem, hkey⟩ := mem_epochsFor.1 hmem
      exact ⟨hkey, hkey ▸ h.intents _ hmem, hkey ▸ h.declared _ hmem⟩
    · rw [heq]
      refine ⟨rfl, fun t ht => ?_, fun id hid => nomatch hid⟩
      rw [List.mem_singleton.1 ht, hplaced]
  obtain ⟨hkey, hintents, hdeclared⟩ := hepoch
  have hadded := h.addFill hplaced
  unfold recordGrossFill at hok
  obtain ⟨⟨⟩, hchanged, hok⟩ := except_bind_eq_ok.1 hok
  rw [raiseIf_eq_ok_iff] at hchanged
  have hsame : ∀ f ∈ w.store.fills, f.fillId = fill.fillId → f.asset = fill.asset := by
    intro f hf hid
    rw [Table.get?_eq_some_iff.2 ⟨hf, hid⟩] at hchanged
    have hfields : f.toFillFields = fill.toFillFields := by simpa using hchanged
    rw [hfields]
  dsimp only at hok
  split at hok
  · cases hok
    exact hadded
  obtain ⟨u, hgross, hok⟩ := except_bind_eq_ok.1 hok
  have hs := saved_of_saveEpoch hgross
  have hu : Placed assetOf u := by
    refine hadded.saved hs (fun t ht => (hintents t ht).trans hkey.symm) fun id hid => ?_
    change ∃ f ∈ assetFills (w.addFill fill) (epochOfFill w fill).canonicalAssetKey, f.fillId = id
    rw [hkey]
    rcases List.mem_append.1 hid with hid | hid
    · obtain ⟨f, hf, heq⟩ := hdeclared id hid
      obtain ⟨hf, hk⟩ := List.mem_filter.1 hf
      exact ⟨f, List.mem_filter.2 ⟨Table.mem_createOnce_of_mem hf, hk⟩, heq⟩
    · rw [List.mem_singleton.1 hid]
      exact mem_addFill hactivities hactivity hsame
  have hwritten : savedEpoch (w.addFill fill) ((epochOfFill w fill).addFill fill) ∈ u.epochs :=
    (hs.mem _).2 (.inl rfl)
  have hintents' := hu.intents _ hwritten
  have hdeclared' := hu.declared _ hwritten
  exact hu.saved (saved_of_saveEpoch hok) hintents' hdeclared'

/-- **The run lemma of a finalisation.** -/
theorem placed_foldlM {p : Population} {epochs todo : List AccountingEpoch}
    (h : Placed assetOf w) (hp : p.fills = assetFills w key)
    (hkeys : ∀ x ∈ todo, x.canonicalAssetKey = key ∧ ∀ t ∈ x.tradeIntentIds, assetOf t = key)
    (hfold : todo.foldlM (finalizeEpoch epochs p now) w = .ok w') : Placed assetOf w' := by
  induction todo generalizing w with
  | nil =>
      cases hfold
      exact h
  | cons e todo ih =>
      rw [List.foldlM_cons] at hfold
      obtain ⟨u, hstep, hrest⟩ := except_bind_eq_ok.1 hfold
      have hkeys' := fun x hx => hkeys x (List.mem_cons_of_mem _ hx)
      obtain ⟨hkey, hintents⟩ := hkeys e List.mem_cons_self
      unfold finalizeEpoch at hstep
      split at hstep
      · cases hstep
        exact ih h hp hkeys' hrest
      · have hs := saved_of_saveEpoch hstep
        have hu : Placed assetOf u := by
          refine h.saved hs (fun t ht => (hintents t ht).trans hkey.symm) fun id hid => ?_
          change id ∈ ((selectedFills p e).map fun f => f.fillId).insertionSort (· ≤ ·) at hid
          rw [(List.perm_insertionSort _ _).mem_iff] at hid
          obtain ⟨f, hf, hsame⟩ := List.mem_map.1 hid
          refine ⟨f, ?_, hsame⟩
          change f ∈ assetFills w e.canonicalAssetKey
          rw [hkey, ← hp]
          exact List.mem_of_mem_filter hf
        exact ih hu (by rw [hp, assetFills_congr (by rw [hs.store])]) hkeys' hrest

theorem placed_finalize {p : Population} {historyId : String} (h : Placed assetOf w)
    (hp : p.fills = assetFills w key)
    (hok : finalizePopulation w key historyId p now = .ok w') : Placed assetOf w' := by
  unfold finalizePopulation at hok
  obtain ⟨inbox, -, hok⟩ := except_bind_eq_ok.1 hok
  dsimp only at hok
  have hepochs : ∀ x ∈ epochsFor w key,
      x.canonicalAssetKey = key ∧ ∀ t ∈ x.tradeIntentIds, assetOf t = key := by
    intro x hx
    obtain ⟨hmem, hkey⟩ := mem_epochsFor.1 hx
    exact ⟨hkey, hkey ▸ h.intents x hmem⟩
  have hhistorical : ∀ t ∈ historicalIntents w key p, assetOf t = key := by
    intro t ht
    obtain ⟨⟨f, hf, rfl⟩, -⟩ := mem_historicalIntents.1 ht
    rw [hp] at hf
    obtain ⟨hf, hkey⟩ := List.mem_filter.1 hf
    exact (h.fills f hf).trans (of_decide_eq_true hkey)
  have hplaced : Placed assetOf { w with
      inbox := inbox
      populations := if p.proof ∈ w.populations then w.populations
        else w.populations ++ [p.proof] } := ⟨h.fills, h.intents, h.declared⟩
  refine placed_foldlM hplaced hp ?_ hok
  intro x hx
  unfold finalizedEpochs at hx
  dsimp only at hx
  split at hx
  · exact hepochs x hx
  split at hx
  · obtain ⟨y, hy, rfl⟩ := List.mem_map.1 hx
    unfold AccountingEpoch.joinHistory
    split
    · refine ⟨(hepochs y hy).1, fun t ht => ?_⟩
      rcases List.mem_append.1 (mem_sortedSet.1 ht) with ht | ht
      · exact (hepochs y hy).2 t ht
      · exact hhistorical t ht
    · exact hepochs y hy
  · rcases List.mem_append.1 hx with hx | hx
    · exact hepochs x hx
    · obtain rfl := List.mem_singleton.1 hx
      exact ⟨rfl, hhistorical⟩

theorem placed_blockAsset {historyId reason : String} {pending : Bool} (h : Placed assetOf w)
    (hok : blockAsset w key historyId reason now pending = .ok w') : Placed assetOf w' := by
  unfold blockAsset at hok
  dsimp only at hok
  cases hlast : (epochsFor w key).getLast? with
  | some x =>
      rw [hlast] at hok
      have hmem := (mem_epochsFor.1 (List.mem_of_getLast? hlast)).1
      exact h.saved (saved_of_saveEpoch hok) (h.intents x hmem) (h.declared x hmem)
  | none =>
      rw [hlast] at hok
      exact h.saved (saved_of_saveEpoch hok) (fun t ht => nomatch ht) fun id hid => nomatch hid

end Transactions

/-! ### Runs -/

/-- What the callers see to: an intent is of one instrument, the identity of a fill is that of its
broker activity, and the fills of the coin come in through `record_gross_fill` alone. -/
def Enters (assetOf : String → String) (key : String) (_ : Accounts) : Event → Prop
  | .recordFill fill => assetIdentityKey fill.asset ≠ key ∧
      fill.brokerFillId = some fill.fillId ∧
        assetOf fill.tradeIntentId = assetIdentityKey fill.asset
  | .recordGrossFill fill => fill.brokerFillId = some fill.fillId ∧
      assetOf fill.tradeIntentId = assetIdentityKey fill.asset
  | .reserve intent _ _ _ => assetOf intent.tradeIntentId = assetIdentityKey intent.asset
  | _ => True

instance (assetOf : String → String) (key : String) :
    ∀ (w : Accounts) (event : Event), Decidable (Enters assetOf key w event)
  | _, .recordFill _ => inferInstanceAs (Decidable (_ ∧ _ ∧ _))
  | _, .recordGrossFill _ => inferInstanceAs (Decidable (_ ∧ _))
  | _, .reserve _ _ _ _ => inferInstanceAs (Decidable (_ = _))
  | _, .elsewhere _ => .isTrue trivial
  | _, .bindOpening _ => .isTrue trivial
  | _, .adopt _ _ _ _ => .isTrue trivial
  | _, .finalize _ _ _ _ => .isTrue trivial
  | _, .block _ _ _ _ _ => .isTrue trivial

/-- At most one fill comes in, and the epoch of its intent is not reconciled then. -/
def Gains (key : String) (w w' : Accounts) : Prop :=
  assetFills w' key = assetFills w key ∨ ∃ fill, assetFills w' key = assetFills w key ++ [fill] ∧
    ∀ y ∈ epochsFor w' key, fill.tradeIntentId ∈ y.tradeIntentIds →
      y.feeAccountingStatus ≠ .reconciledNet

section Runs

variable {assetOf : String → String} {key : String} {w w' : Accounts} {event : Event}

theorem Gains.of_fills (h : w'.store.fills = w.store.fills) : Gains key w w' :=
  .inl (assetFills_congr h key)

theorem accounted_empty : Accounted key {} where
  activity := by simp [Table.mem_def, default]
  assigned := by simp [assetFills, default]
  disjoint := by simp [epochsFor, default]
  declares := by simp [epochsFor, default]

/-- **The step lemma.** -/
theorem accounted_step (hsound : Sound w) (h : Accounted key w) (hok : Enters assetOf key w event)
    (hstep : step w event = some w') : Grows key w w' ∧ Gains key w w' := by
  cases event with
  | elsewhere t =>
      cases hstep
      exact ⟨h.same rfl rfl, .of_fills rfl⟩
  | recordFill fill =>
      cases hstep
      obtain ⟨hgrows, hfills⟩ := h.addFill_elsewhere hok.2.1 hok.1
      exact ⟨hgrows, .inl hfills⟩
  | bindOpening checkpoint =>
      simp only [step, Option.ite_none_right_eq_some] at hstep
      obtain ⟨-, hstep⟩ := hstep
      cases hstep
      exact ⟨h.same rfl rfl, .of_fills rfl⟩
  | adopt adoptionId key' quantity adoptedAt =>
      simp only [step, Option.ite_none_right_eq_some] at hstep
      obtain ⟨hfresh, hstep⟩ := hstep
      have hsave := eq_ok_of_toOption hstep
      refine ⟨grows_open h rfl rfl rfl rfl (Option.isNone_iff_eq_none.1 hfresh) ?_ hsave,
        .of_fills (by rw [(saved_of_saveEpoch hsave).store])⟩
      exact fun t ht => absurd ht List.not_mem_nil
  | reserve intent brokerQuantity protective now =>
      simp only [step, Option.ite_none_right_eq_some, Option.map_eq_some_iff] at hstep
      obtain ⟨hid, ⟨r, u⟩, hres, rfl⟩ := hstep
      obtain ⟨hgrows, hfills⟩ := grows_reserve h hid (eq_ok_of_toOption hres)
      exact ⟨hgrows, .of_fills hfills⟩
  | recordGrossFill fill =>
      simp only [step, Option.ite_none_right_eq_some] at hstep
      obtain ⟨hid, hstep⟩ := hstep
      have hrec := eq_ok_of_toOption hstep
      by_cases hk : assetIdentityKey fill.asset = key
      · obtain ⟨hgrows, hfills | hnew⟩ := grows_recordGrossFill_own h hid hok.1 hk hrec
        · exact ⟨hgrows, .inl hfills⟩
        · exact ⟨hgrows, .inr ⟨fill, hnew⟩⟩
      · obtain ⟨hgrows, hfills⟩ := grows_recordGrossFill_elsewhere h hid hok.1 hk hrec
        exact ⟨hgrows, .inl hfills⟩
  | finalize key' historyId p now =>
      simp only [step, Option.ite_none_right_eq_some] at hstep
      obtain ⟨hhistory, hstep⟩ := hstep
      have hfinal := eq_ok_of_toOption hstep
      obtain ⟨u, -, hstore, -, -, -, hfinalizes⟩ := finalizes_of_ok hsound hhistory rfl hfinal
      exact ⟨grows_finalize h hhistory rfl hfinal,
        .of_fills (by rw [hfinalizes.frame, ← hstore])⟩
  | block key' historyId reason now pending =>
      simp only [step, Option.ite_none_right_eq_some] at hstep
      obtain ⟨hhistory, hstep⟩ := hstep
      have hblock := eq_ok_of_toOption hstep
      exact ⟨grows_blockAsset h hhistory hblock,
        .of_fills (by rw [(saved_of_saveEpoch hblock).store])⟩

theorem placed_step (hactivities : ∀ f ∈ w.store.fills, f.brokerFillId = some f.fillId)
    (h : Placed assetOf w) (hok : Enters assetOf key w event) (hstep : step w event = some w') :
    Placed assetOf w' := by
  cases event with
  | elsewhere t =>
      cases hstep
      exact ⟨h.fills, h.intents, h.declared⟩
  | recordFill fill =>
      cases hstep
      exact h.addFill hok.2.2
  | bindOpening checkpoint =>
      simp only [step, Option.ite_none_right_eq_some] at hstep
      obtain ⟨-, hstep⟩ := hstep
      cases hstep
      exact ⟨h.fills, h.intents, h.declared⟩
  | adopt adoptionId key' quantity adoptedAt =>
      simp only [step, Option.ite_none_right_eq_some] at hstep
      obtain ⟨-, hstep⟩ := hstep
      refine h.saved (saved_of_saveEpoch (eq_ok_of_toOption hstep)) ?_ ?_
      · exact fun t ht => absurd ht List.not_mem_nil
      · exact fun id hid => absurd hid List.not_mem_nil
  | reserve intent brokerQuantity protective now =>
      simp only [step, Option.ite_none_right_eq_some, Option.map_eq_some_iff] at hstep
      obtain ⟨-, ⟨r, u⟩, hres, rfl⟩ := hstep
      rcases reserveEpoch_cases (eq_ok_of_toOption hres) with
        hsame | ⟨-, ⟨x, hx, hsave⟩ | ⟨quantity, hsave⟩⟩
      · exact hsame ▸ h
      · exact h.joined hx hok hsave
      · refine h.saved (saved_of_saveEpoch hsave) ?_ fun id hid => absurd hid List.not_mem_nil
        intro t ht
        rw [List.mem_singleton.1 ht]
        exact hok
  | recordGrossFill fill =>
      simp only [step, Option.ite_none_right_eq_some] at hstep
      exact placed_recordGrossFill h hactivities hok.1 hok.2 (eq_ok_of_toOption hstep.2)
  | finalize key' historyId p now =>
      simp only [step, Option.ite_none_right_eq_some] at hstep
      exact placed_finalize h rfl (eq_ok_of_toOption hstep.2)
  | block key' historyId reason now pending =>
      simp only [step, Option.ite_none_right_eq_some] at hstep
      exact placed_blockAsset h (eq_ok_of_toOption hstep.2)

theorem placed_empty : Placed assetOf {} where
  fills := by simp [Table.mem_def, default]
  intents := by simp [Table.mem_def, default]
  declared := by simp [Table.mem_def, default]

/-- **Every state reached** is accounted for, and in its instruments. -/
theorem accounted_of_reaches (hreach : machine.Reaches (Enters assetOf key) {} w) :
    Accounted key w ∧ Placed assetOf w := by
  have hall : Sound w ∧ Accounted key w ∧ Placed assetOf w := by
    refine hreach.invariant (I := fun w => Sound w ∧ Accounted key w ∧ Placed assetOf w)
      ⟨sound_empty, accounted_empty, placed_empty⟩ ?_
    rintro s event s' ⟨hsound, haccounted, hplaced⟩ hok hstep
    exact ⟨sound_step hsound hstep, (accounted_step hsound haccounted hok hstep).1.accounted,
      placed_step haccounted.activity hplaced hok hstep⟩
  exact hall.2

theorem Declares.mem_fillIds {e : AccountingEpoch} (h : Declares w e) {id : String} :
    id ∈ e.fillIds ↔ ∃ f ∈ assetFills w e.canonicalAssetKey,
      f.tradeIntentId ∈ e.tradeIntentIds ∧ f.fillId = id := by
  simp [h.fills.mem_iff, ownFills, and_assoc]

theorem Declares.nodup {e : AccountingEpoch} (h : Declares w e) : e.fillIds.Nodup := by
  refine h.fills.nodup_iff.2 (List.pairwise_map.2 ?_)
  exact ((w.store.fills.keyed.imp fun hne => hne.1).filter _).filter _

theorem Accounted.existsUnique (h : Accounted key w) (hplaced : Placed assetOf w) {f : Fill}
    (hf : f ∈ assetFills w key) : ∃! e, e ∈ w.epochs ∧ f.fillId ∈ e.fillIds := by
  obtain ⟨e, he, ht⟩ := h.assigned f hf
  obtain ⟨hmem, hkey⟩ := mem_epochsFor.1 he
  refine ⟨e, ⟨hmem, (h.declares e he).mem_fillIds.2 ⟨f, hkey.symm ▸ hf, ht, rfl⟩⟩, ?_⟩
  rintro x ⟨hx, hid⟩
  -- fills are keyed by their identity, so the other epoch is of the same instrument
  obtain ⟨g, hg, hsame⟩ := hplaced.declared x hx _ hid
  have hgf : g = f := Table.eq_of_recordId (List.mem_of_mem_filter hg) (List.mem_of_mem_filter hf)
    hsame
  have hxkey : x.canonicalAssetKey = key := by
    rw [hgf] at hg
    exact (of_decide_eq_true (List.mem_filter.1 hg).2).symm.trans
      (of_decide_eq_true (List.mem_filter.1 hf).2)
  have hx' := mem_epochsFor.2 ⟨hx, hxkey⟩
  obtain ⟨g', hg', htx, hsame'⟩ := (h.declares x hx').mem_fillIds.1 hid
  have hg'f : g' = f := Table.eq_of_recordId (List.mem_of_mem_filter hg')
    (List.mem_of_mem_filter hf) hsame'
  exact eq_of_epochId hx' he (h.disjoint x hx' e he _ (hg'f ▸ htx) ht)

theorem Accounted.eq_of_mem (h : Accounted key w) (hplaced : Placed assetOf w)
    {e x : AccountingEpoch} (he : e ∈ epochsFor w key) (hx : x ∈ w.epochs) {t : String}
    (ht : t ∈ e.tradeIntentIds) (htx : t ∈ x.tradeIntentIds) : e = x := by
  obtain ⟨hmem, hkey⟩ := mem_epochsFor.1 he
  have hxkey : x.canonicalAssetKey = key := by
    rw [← hplaced.intents x hx t htx, hplaced.intents e hmem t ht, hkey]
  have hx' := mem_epochsFor.2 ⟨hx, hxkey⟩
  exact eq_of_epochId he hx' (h.disjoint e he x hx' t ht htx)

/-- An epoch that gains a fill is not reconciled. -/
theorem not_reconciled_of_gains (h : Accounted key w) (hgrows : Grows key w w')
    (hgains : Gains key w w') {e y : AccountingEpoch} (he : e ∈ epochsFor w key)
    (hy : y ∈ epochsFor w' key) (hid : y.accountingEpochId = e.accountingEpochId) {id : String}
    (hnew : id ∈ y.fillIds) (hold : id ∉ e.fillIds) : y.feeAccountingStatus ≠ .reconciledNet := by
  obtain ⟨f, hf, ht, rfl⟩ := (hgrows.accounted.declares y hy).mem_fillIds.1 hnew
  rw [(mem_epochsFor.1 hy).2] at hf
  -- a fill that was on record before was in this epoch
  have hbefore : f ∉ assetFills w key := by
    intro hmem
    obtain ⟨x, hx, htx⟩ := h.assigned f hmem
    obtain ⟨z, hz, hzid, hkeep⟩ := hgrows.keeps x hx
    have hsame := hgrows.accounted.disjoint z hz y hy _ (hkeep _ htx) ht
    obtain rfl := eq_of_epochId hx he (hzid.symm.trans (hsame.trans hid))
    exact hold ((h.declares x hx).mem_fillIds.2
      ⟨f, (mem_epochsFor.1 hx).2.symm ▸ hmem, htx, rfl⟩)
  rcases hgains with hfills | ⟨fill, hfills, hpending⟩
  · exact absurd (hfills ▸ hf) hbefore
  · rw [hfills] at hf
    rcases List.mem_append.1 hf with hf | hf
    · exact absurd hf hbefore
    · rw [List.mem_singleton.1 hf] at ht
      exact hpending y hy ht

/-- **Each fill in one epoch.**  In every state that the transactions reach in any order, when the
fills of the instrument come in through `record_gross_fill`: no intent is in two epochs, each fill
is declared by one epoch, each epoch declares the fills of its intents and no others, each once,
with their quantity, and whatever transaction adds a fill to an epoch leaves it unreconciled. -/
theorem epochs_cover_each_fill_once (hreach : machine.Reaches (Enters assetOf key) {} w) :
    (∀ e ∈ epochsFor w key, ∀ x ∈ w.epochs, ∀ t ∈ e.tradeIntentIds,
      t ∈ x.tradeIntentIds → e = x) ∧
    (∀ f ∈ assetFills w key, ∃! e, e ∈ w.epochs ∧ f.fillId ∈ e.fillIds) ∧
    (∀ e ∈ epochsFor w key, e.fillIds.Nodup ∧
      (∀ id, id ∈ e.fillIds ↔
        ∃ f ∈ assetFills w key, f.tradeIntentId ∈ e.tradeIntentIds ∧ f.fillId = id) ∧
      e.grossFilledQuantity = (((assetFills w key).filter fun f =>
        f.tradeIntentId ∈ e.tradeIntentIds).map fun f => f.quantity).sum) ∧
    ∀ event w', Enters assetOf key w event → machine.step w event = some w' →
      ∀ e ∈ epochsFor w key, ∀ y ∈ epochsFor w' key,
        y.accountingEpochId = e.accountingEpochId → ∀ id ∈ y.fillIds, id ∉ e.fillIds →
          y.feeAccountingStatus ≠ .reconciledNet := by
  obtain ⟨h, hplaced⟩ := accounted_of_reaches hreach
  refine ⟨fun e he x hx t ht htx => h.eq_of_mem hplaced he hx ht htx,
    fun f hf => h.existsUnique hplaced hf, ?_, ?_⟩
  · intro e he
    have hdeclares := h.declares e he
    refine ⟨hdeclares.nodup, fun id => ?_, ?_⟩
    · rw [hdeclares.mem_fillIds, (mem_epochsFor.1 he).2]
    · rw [hdeclares.gross, ownFills, (mem_epochsFor.1 he).2]
  · intro event w' hok hstep e he y hy hid id hnew hold
    have hsound := sound_of_reaches (hreach.mono fun _ _ _ => trivial)
    obtain ⟨hgrows, hgains⟩ := accounted_step hsound h hok hstep
    exact not_reconciled_of_gains h hgrows hgains he hy hid hnew hold

/-- A coin that was bought; the fill is recorded twice, and the instrument then blocked. -/
def boughtTwice (purchase : Option Fill) : List Event :=
  List.flatten
    [ [.reserve (coinOrder "entry" .buy .riskApproved) 0 false 0],
      purchase.toList.flatMap fun fill => [.recordGrossFill fill, .recordGrossFill fill],
      [.block (assetIdentityKey coin) "crypto_epoch:history:coin" "fee pending" 3 true] ]

/-- The execution of the entry. -/
def entryPurchase : Option Fill :=
  (Fill.make
    { fillId := "purchase"
      tradeIntentId := "entry"
      orderId := "order-entry"
      asset := coin
      side := .buy
      executionMode := .paper
      quantity := 2
      price := 100
      fees := 0
      filledAt := 1
      brokerFillId := some "purchase" }).toOption

/-- A purchase that was recorded twice is in one epoch. -/
theorem epochs_cover_each_fill_once_purchase : ∃ w : Accounts,
    ∃ f ∈ assetFills w (assetIdentityKey coin),
      ∃! e, e ∈ w.epochs ∧ f.fillId ∈ e.fillIds := by
  have hrun : (machine.runUnder (Enters (fun _ => assetIdentityKey coin) (assetIdentityKey coin))
      {} (boughtTwice entryPurchase)).any (fun w =>
        decide (∃ f ∈ assetFills w (assetIdentityKey coin), True)) = true := by
    decide +kernel
  obtain ⟨w, hreach, f, hf, -⟩ := Machine.exists_of_runUnder hrun
  exact ⟨w, f, hf, (epochs_cover_each_fill_once hreach).2.1 f hf⟩

end Runs

end Epochs

end TradePulse
