/-
**Entries that were never sent.**

The gateway reserves an accounting epoch before an order is sent, and may still close the intent
unsent.  The finalisation of the instrument passes over an epoch none of whose intents has a fill,
so the epoch of a lone entry that was never sent stays as it was reserved: it refuses every later
entry, and the independent check reports it.

Main definitions:

* `Event`, `machine` — the transactions on epochs, in any order;
* `Sound` — the versions of checkpoints agree with the epochs, and what is reconciled has fills;
* `NeverSent`, `Complete` — an entry closed unsent, and complete evidence on its epoch;
* `HoldsBack`, `Reported` — what an epoch may do to its instrument.

Main results:

* `sound_of_reaches` — every state reached is sound;
* `quiet_iff_filled` — **after a finalisation with complete evidence the epoch of an entry that was
  never sent is quiet if and only if the epoch has a fill of another intent**;
* `never_sent_blocks` — a lone entry that was rejected holds back the next one.
-/

import TradePulse.Process.Machine
import TradePulse.Reconciliation.Epochs

set_option autoImplicit false

namespace TradePulse

namespace Epochs

open Process Storage

/-! ### Sound accounts -/

/-- The checkpoints that were issued agree with the versions of the epochs; an epoch that is
reconciled has a fill; and no epoch is bound to a generation before one is open. -/
structure Sound (w : Accounts) : Prop where
  receipts : ∀ c ∈ w.checkpoints, ∃ e ∈ w.epochs,
    e.accountingEpochId = c.1.epoch ∧ c.1.version ≤ e.checkpointVersion
  current : ∀ e ∈ w.epochs, ∀ c ∈ e.checkpointId, c.version ≤ e.checkpointVersion
  superseded : ∀ e ∈ w.epochs, ∀ c ∈ e.supersededCheckpointIds, c.version ≤ e.checkpointVersion
  issued : ∀ e ∈ w.epochs, e.feeAccountingStatus = .reconciledNet →
    e.checkpointId = some ⟨e.accountingEpochId, e.checkpointVersion, e.populationProof⟩ ∧
      ∀ c ∈ e.supersededCheckpointIds, c.version < e.checkpointVersion
  filled : ∀ e ∈ w.epochs, e.feeAccountingStatus = .reconciledNet →
    ∃ f ∈ assetFills w e.canonicalAssetKey, f.tradeIntentId ∈ e.tradeIntentIds
  generation : w.opening = none → ∀ e ∈ w.epochs, e.generation = none

/-- An epoch about to be written carries the versions of the one on record. -/
def Carried (w : Accounts) (e : AccountingEpoch) : Prop :=
  match w.epochs.get? e.accountingEpochId with
  | none => e.checkpointVersion = 0 ∧ e.checkpointId = none ∧ e.supersededCheckpointIds = []
  | some previous => e.checkpointVersion = previous.checkpointVersion ∧
      e.checkpointId = previous.checkpointId ∧
        e.supersededCheckpointIds = previous.supersededCheckpointIds

section Save

variable {w w' : Accounts} {e previous : AccountingEpoch}

theorem sound_empty : Sound {} where
  receipts := by simp
  current := by simp [Table.mem_def, default]
  superseded := by simp [Table.mem_def, default]
  issued := by simp [Table.mem_def, default]
  filled := by simp [Table.mem_def, default]
  generation := by simp [Table.mem_def, default]

theorem Sound.lookup_eq_none (h : Sound w) (id : CheckpointId)
    (hid : ∀ e ∈ w.epochs, e.accountingEpochId = id.epoch → e.checkpointVersion < id.version) :
    w.checkpoints.lookup id = none := by
  rw [List.lookup_eq_none_iff]
  intro c hc
  obtain ⟨e, he, hepoch, hversion⟩ := h.receipts c hc
  have hne : id ≠ c.1 := by
    rintro rfl
    have := hid e he hepoch
    omega
  simpa using hne

/-- Of what supersedes nothing changes but the list of what is superseded. -/
theorem supersede_eq (w : Accounts) (previous e : AccountingEpoch) :
    ∃ xs, supersede w previous e = { e with supersededCheckpointIds := xs } ∧
      ∀ c ∈ xs, c ∈ e.supersededCheckpointIds ∨ previous.checkpointId = some c := by
  unfold supersede
  split
  · cases hid : previous.checkpointId with
    | none => exact ⟨_, rfl, fun c hc => .inl hc⟩
    | some id =>
        dsimp only
        split
        · exact ⟨_, rfl, fun c hc => .inl hc⟩
        · refine ⟨_, rfl, fun c hc => ?_⟩
          rcases List.mem_append.1 hc with hc | hc
          · exact .inl hc
          · exact .inr (by rw [List.mem_singleton.1 hc])
  · exact ⟨_, rfl, fun c hc => .inl hc⟩

/-- The versions of an epoch as it is written: either it is unchanged and its checkpoint stands, or
it is not reconciled and keeps its version, or it gets a checkpoint of the next version. -/
theorem savedEpoch_cases (h : Sound w) (hcarried : Carried w e) :
    (w.epochs.get? e.accountingEpochId = some (savedEpoch w e) ∧
        e.feeAccountingStatus = .reconciledNet ∧
          w.checkpoints.lookup ⟨e.accountingEpochId, (savedEpoch w e).checkpointVersion,
            e.populationProof⟩ = some (savedEpoch w e)) ∨
      (e.feeAccountingStatus ≠ .reconciledNet ∧
        (∀ p ∈ w.epochs, p.accountingEpochId = e.accountingEpochId →
          p.checkpointVersion ≤ (savedEpoch w e).checkpointVersion) ∧
        (∀ c ∈ (savedEpoch w e).checkpointId, c.version ≤ (savedEpoch w e).checkpointVersion) ∧
        ∀ c ∈ (savedEpoch w e).supersededCheckpointIds,
          c.version ≤ (savedEpoch w e).checkpointVersion) ∨
      (e.feeAccountingStatus = .reconciledNet ∧
        (∀ p ∈ w.epochs, p.accountingEpochId = e.accountingEpochId →
          p.checkpointVersion < (savedEpoch w e).checkpointVersion) ∧
        (savedEpoch w e).checkpointId = some ⟨e.accountingEpochId,
          (savedEpoch w e).checkpointVersion, e.populationProof⟩ ∧
        ∀ c ∈ (savedEpoch w e).supersededCheckpointIds,
          c.version < (savedEpoch w e).checkpointVersion) := by
  unfold Carried at hcarried
  cases hprev : w.epochs.get? e.accountingEpochId with
  | none =>
      rw [hprev] at hcarried
      obtain ⟨hversion, hid, hsuperseded⟩ := hcarried
      have hnone : ∀ p ∈ w.epochs, p.accountingEpochId = e.accountingEpochId → False := by
        intro p hp hsame
        exact Table.get?_eq_none_iff.1 hprev p hp hsame
      unfold savedEpoch
      rw [hprev]
      dsimp only
      split
      · rename_i hreconciled
        refine .inr (.inr ⟨hreconciled, fun p hp hsame => (hnone p hp hsame).elim, rfl, ?_⟩)
        intro c hc
        simp [nextCheckpoint, hsuperseded] at hc
      · rename_i hpending
        refine .inr (.inl ⟨hpending, fun p hp hsame => (hnone p hp hsame).elim, ?_, ?_⟩)
        · simp [hid]
        · simp [hsuperseded]
  | some previous =>
      rw [hprev] at hcarried
      obtain ⟨hversion, hid, hsuperseded⟩ := hcarried
      obtain ⟨hmem, hkey⟩ := Table.get?_eq_some_iff.1 hprev
      have hunique : ∀ p ∈ w.epochs, p.accountingEpochId = e.accountingEpochId → p = previous :=
        fun p hp hsame => Table.eq_of_recordId hp hmem (hsame.trans hkey.symm)
      obtain ⟨xs, hmark, hxs⟩ := supersede_eq w previous e
      have hbound : ∀ c ∈ xs, c.version ≤ previous.checkpointVersion := by
        intro c hc
        rcases hxs c hc with hc | hc
        · rw [hsuperseded] at hc
          exact h.superseded previous hmem c hc
        · exact h.current previous hmem c hc
      by_cases hnext : e.feeAccountingStatus = .reconciledNet ∧
          (previous.feeAccountingStatus ≠ .reconciledNet ∨ changedCheckpoint w previous e = true)
      · have hsaved : savedEpoch w e = nextCheckpoint previous.checkpointVersion
            { e with supersededCheckpointIds := xs } := by
          unfold savedEpoch
          rw [hprev]
          dsimp only
          rw [if_pos hnext, hmark]
        rw [hsaved]
        refine .inr (.inr ⟨hnext.1, fun p hp hsame => ?_, rfl, fun c hc => ?_⟩)
        · rw [hunique p hp hsame]
          exact Nat.lt_succ_self _
        · exact Nat.lt_succ_of_le (hbound c hc)
      · have hsaved : savedEpoch w e = { e with supersededCheckpointIds := xs } := by
          unfold savedEpoch
          rw [hprev]
          dsimp only
          rw [if_neg hnext, hmark]
        by_cases hreconciled : e.feeAccountingStatus = .reconciledNet
        · -- nothing changed since the checkpoint was issued
          left
          rw [not_and_or, not_or, not_not] at hnext
          obtain ⟨hstatus, hsame⟩ := hnext.resolve_left (not_not.2 hreconciled)
          have hunchanged : e = previous ∧ receiptMatches w previous = true := by
            simpa [changedCheckpoint, hreconciled] using hsame
          obtain ⟨rfl, hreceipt⟩ := hunchanged
          have hstays : savedEpoch w e = e := by
            rw [hsaved, ← hmark]
            unfold supersede
            rw [if_neg]
            rintro ⟨-, hchanged, -⟩
            exact hsame hchanged
          obtain ⟨hissued, -⟩ := h.issued e hmem hreconciled
          rw [hstays]
          refine ⟨rfl, hreconciled, ?_⟩
          unfold receiptMatches at hreceipt
          rw [hissued] at hreceipt
          exact of_decide_eq_true hreceipt
        · refine .inr (.inl ⟨hreconciled, ?_, ?_, ?_⟩)
          · intro p hp hsame
            rw [hunique p hp hsame, hsaved]
            exact hversion.ge
          · rw [hsaved]
            intro c hc
            have hc' : c ∈ previous.checkpointId := hid ▸ hc
            exact (h.current previous hmem c hc').trans hversion.ge
          · rw [hsaved]
            intro c hc
            exact (hbound c hc).trans hversion.ge

theorem Saved.checkpoints (h : Sound w) (hcarried : Carried w e) (hs : Saved w e w') :
    w'.checkpoints = w.checkpoints ∨ e.feeAccountingStatus = .reconciledNet ∧
      w'.checkpoints = w.checkpoints ++ [(⟨e.accountingEpochId,
        (savedEpoch w e).checkpointVersion, e.populationProof⟩, savedEpoch w e)] := by
  rcases hs.receipts with ⟨-, hsame⟩ | hnew
  · exact .inl hsame
  · rcases savedEpoch_cases h hcarried with ⟨hsame, hrec, hlookup⟩ | ⟨hpending, -⟩ |
      ⟨hrec, hversion, hid, -⟩
    · have hmem := (Table.get?_eq_some_iff.1 hsame).1
      have hissued := (h.issued _ hmem (savedEpoch_feeAccountingStatus.trans hrec)).1
      rw [savedEpoch_accountingEpochId, savedEpoch_field (·.populationProof) fun _ _ _ _ => rfl]
        at hissued
      rw [if_pos hrec] at hnew
      left
      simp [hnew, addCheckpoint, hissued, hlookup]
    · rw [if_neg hpending] at hnew
      exact .inl hnew
    · rw [if_pos hrec] at hnew
      right
      refine ⟨hrec, ?_⟩
      have hnone := h.lookup_eq_none ⟨e.accountingEpochId,
        (savedEpoch w e).checkpointVersion, e.populationProof⟩ hversion
      simp [hnew, addCheckpoint, hid, hnone]

/-- **The receipt of a checkpoint**: a reconciled epoch is written with a checkpoint whose receipt
holds the epoch as it is. -/
theorem Saved.lookup (h : Sound w) (hcarried : Carried w e) (hs : Saved w e w')
    (hrec : e.feeAccountingStatus = .reconciledNet) :
    w'.checkpoints.lookup ⟨e.accountingEpochId, (savedEpoch w e).checkpointVersion,
        e.populationProof⟩ = some (savedEpoch w e) := by
  rcases savedEpoch_cases h hcarried with ⟨-, -, hlookup⟩ | ⟨hpending, -⟩ | ⟨-, hversion, hid, -⟩
  · rcases hs.checkpoints h hcarried with hsame | ⟨-, hnew⟩
    · rw [hsame]
      exact hlookup
    · rw [hnew, List.lookup_append, hlookup]
      rfl
  · exact absurd hrec hpending
  · have hnone := h.lookup_eq_none ⟨e.accountingEpochId,
      (savedEpoch w e).checkpointVersion, e.populationProof⟩ hversion
    rcases hs.receipts with ⟨hsame, -⟩ | hnew
    · -- a new version is not the one on record
      have hself := hversion _ (Table.get?_eq_some_iff.1 hsame).1 savedEpoch_accountingEpochId
      exact absurd hself (lt_irrefl _)
    · rw [if_pos hrec] at hnew
      simp [hnew, addCheckpoint, hid, hnone, List.lookup_append]

theorem Saved.versions (h : Sound w) (hcarried : Carried w e) :
    (∀ p ∈ w.epochs, p.accountingEpochId = e.accountingEpochId →
        p.checkpointVersion ≤ (savedEpoch w e).checkpointVersion) ∧
      (∀ c ∈ (savedEpoch w e).checkpointId, c.version ≤ (savedEpoch w e).checkpointVersion) ∧
      (∀ c ∈ (savedEpoch w e).supersededCheckpointIds,
        c.version ≤ (savedEpoch w e).checkpointVersion) ∧
      (e.feeAccountingStatus = .reconciledNet →
        (savedEpoch w e).checkpointId = some ⟨e.accountingEpochId,
            (savedEpoch w e).checkpointVersion, e.populationProof⟩ ∧
          ∀ c ∈ (savedEpoch w e).supersededCheckpointIds,
            c.version < (savedEpoch w e).checkpointVersion) := by
  rcases savedEpoch_cases h hcarried with ⟨hsame, hrec, -⟩ | ⟨hpending, hle, hid, hsup⟩ |
    ⟨hrec, hlt, hid, hsup⟩
  · obtain ⟨hmem, hkey⟩ := Table.get?_eq_some_iff.1 hsame
    refine ⟨fun p hp hep => ?_, h.current _ hmem, h.superseded _ hmem, fun _ => ?_⟩
    · rw [Table.eq_of_recordId hp hmem (hep.trans hkey.symm)]
    · have hissued := h.issued _ hmem (savedEpoch_feeAccountingStatus.trans hrec)
      rw [savedEpoch_accountingEpochId, savedEpoch_field (·.populationProof) fun _ _ _ _ => rfl]
        at hissued
      exact hissued
  · exact ⟨hle, hid, hsup, fun hrec => absurd hrec hpending⟩
  · refine ⟨fun p hp hep => (hlt p hp hep).le, ?_, fun c hc => (hsup c hc).le, fun _ => ⟨hid, hsup⟩⟩
    rw [hid]
    intro c hc
    cases hc
    exact le_refl _

/-- **The step lemma of epochs**: a write keeps the accounts sound. -/
theorem Saved.sound (h : Sound w) (hcarried : Carried w e) (hs : Saved w e w')
    (hfilled : e.feeAccountingStatus = .reconciledNet →
      ∃ f ∈ assetFills w e.canonicalAssetKey, f.tradeIntentId ∈ e.tradeIntentIds)
    (hgeneration : w.opening = none → e.generation = none) : Sound w' := by
  obtain ⟨hle, hcurrent, hsuperseded, hissued⟩ := Saved.versions h hcarried
  have hfills : ∀ key, assetFills w' key = assetFills w key := by
    intro key
    unfold assetFills
    rw [hs.store]
  constructor
  · -- the row of a receipt stays, or is replaced by one that is not behind it
    have hkeep : ∀ c ∈ w.checkpoints, ∃ x ∈ w'.epochs,
        x.accountingEpochId = c.1.epoch ∧ c.1.version ≤ x.checkpointVersion := by
      intro c hc
      obtain ⟨x, hx, hepoch, hversion⟩ := h.receipts c hc
      by_cases hid : x.accountingEpochId = e.accountingEpochId
      · refine ⟨savedEpoch w e, (hs.mem _).2 (.inl rfl), ?_, hversion.trans (hle x hx hid)⟩
        rw [savedEpoch_accountingEpochId, ← hid, hepoch]
      · exact ⟨x, (hs.mem x).2 (.inr ⟨hx, hid⟩), hepoch, hversion⟩
    rcases hs.checkpoints h hcarried with hsame | ⟨-, hnew⟩
    · rw [hsame]
      exact hkeep
    · intro c hc
      rw [hnew] at hc
      rcases List.mem_append.1 hc with hc | hc
      · exact hkeep c hc
      · obtain rfl := List.mem_singleton.1 hc
        exact ⟨savedEpoch w e, (hs.mem _).2 (.inl rfl), savedEpoch_accountingEpochId, le_refl _⟩
  · intro x hx
    rcases (hs.mem x).1 hx with rfl | ⟨hx, -⟩
    · exact hcurrent
    · exact h.current x hx
  · intro x hx
    rcases (hs.mem x).1 hx with rfl | ⟨hx, -⟩
    · exact hsuperseded
    · exact h.superseded x hx
  · intro x hx hrec
    rcases (hs.mem x).1 hx with rfl | ⟨hx, -⟩
    · rw [savedEpoch_feeAccountingStatus] at hrec
      rw [savedEpoch_accountingEpochId, savedEpoch_field (·.populationProof) fun _ _ _ _ => rfl]
      exact hissued hrec
    · exact h.issued x hx hrec
  · intro x hx hrec
    rw [hfills]
    rcases (hs.mem x).1 hx with rfl | ⟨hx, -⟩
    · rw [savedEpoch_feeAccountingStatus] at hrec
      rw [savedEpoch_canonicalAssetKey, savedEpoch_tradeIntentIds]
      exact hfilled hrec
    · exact h.filled x hx hrec
  · intro hopening x hx
    rw [hs.openingCheckpoint] at hopening
    rcases (hs.mem x).1 hx with rfl | ⟨hx, -⟩
    · rw [savedEpoch_generation]
      exact hgeneration hopening
    · exact h.generation hopening x hx

theorem Saved.others (hs : Saved w e w') {id : String} (hid : id ≠ e.accountingEpochId) :
    w'.epochs.get? id = w.epochs.get? id := by
  ext x
  simp only [Table.get?_eq_some_iff, hs.mem]
  constructor
  · rintro ⟨rfl | ⟨hx, -⟩, hkey⟩
    · exact absurd (hkey.symm.trans savedEpoch_accountingEpochId) hid
    · exact ⟨hx, hkey⟩
  · rintro ⟨hx, hkey⟩
    exact ⟨.inr ⟨hx, fun hsame => hid (hkey.symm.trans hsame)⟩, hkey⟩

theorem Saved.lookup_keep (h : Sound w) (hcarried : Carried w e) (hs : Saved w e w')
    {id : CheckpointId} {x : AccountingEpoch} (hx : w.checkpoints.lookup id = some x) :
    w'.checkpoints.lookup id = some x := by
  rcases hs.checkpoints h hcarried with hsame | ⟨-, hnew⟩
  · rw [hsame]
    exact hx
  · rw [hnew, List.lookup_append, hx]
    rfl

end Save

/-! ### A finalisation -/

/-- An epoch about to be written, of an instrument. -/
structure Ready (w : Accounts) (key : String) (e : AccountingEpoch) : Prop where
  carried : Carried w e
  key : e.canonicalAssetKey = key
  generation : w.opening = none → e.generation = none

/-- What the write of an epoch leaves until the end of a finalisation. -/
def Leaves (w w' : Accounts) (e : AccountingEpoch) : Prop :=
  verifyOpening w.opening e = .ok () ∧ ∃ saved : AccountingEpoch, (∃ u, saved = savedEpoch u e) ∧
    w'.epochs.get? e.accountingEpochId = some saved ∧
      (e.feeAccountingStatus = .reconciledNet →
        w'.checkpoints.lookup ⟨e.accountingEpochId, saved.checkpointVersion, e.populationProof⟩
            = some saved ∧
          saved.checkpointId = some ⟨e.accountingEpochId, saved.checkpointVersion,
            e.populationProof⟩ ∧
          ∀ c ∈ saved.supersededCheckpointIds, c.version < saved.checkpointVersion)

section Finalize

variable {w w' : Accounts} {key historyId : String} {p : Population} {now : Instant}
  {epochs todo : List AccountingEpoch}

/-- What a finalisation leaves, epoch by epoch. -/
structure Finalizes (w : Accounts) (epochs : List AccountingEpoch) (p : Population)
    (now : Instant) (todo : List AccountingEpoch) (w' : Accounts) : Prop where
  sound : Sound w'
  frame : w' = { w with
    epochs := w'.epochs
    checkpoints := w'.checkpoints }
  lookup : ∀ id x, w.checkpoints.lookup id = some x → w'.checkpoints.lookup id = some x
  skipped : ∀ id, (∀ e ∈ todo, e.accountingEpochId = id → selectedFills p e = []) →
    w'.epochs.get? id = w.epochs.get? id
  written : ∀ e ∈ todo, selectedFills p e ≠ [] →
    Leaves w w' (finalizedEpoch w.store epochs p now e)

/-- **The run lemma of a finalisation**: each epoch with fills is written once, as the population
finds it; all else stays. -/
theorem finalizes_of_foldlM (hfills : ∀ f ∈ p.fills, f ∈ assetFills w key) (h : Sound w)
    (hready : ∀ e ∈ todo, Ready w key e)
    (hdistinct : todo.Pairwise fun a b => a.accountingEpochId ≠ b.accountingEpochId)
    (hfold : todo.foldlM (finalizeEpoch epochs p now) w = .ok w') :
    Finalizes w epochs p now todo w' := by
  induction todo generalizing w with
  | nil =>
      cases hfold
      exact { sound := h, frame := rfl, lookup := fun _ _ hx => hx, skipped := fun _ _ => rfl,
              written := fun e he => nomatch he }
  | cons e todo ih =>
      rw [List.foldlM_cons] at hfold
      obtain ⟨u, hstep, hrest⟩ := except_bind_eq_ok.1 hfold
      obtain ⟨hapart, hdistinct⟩ := List.pairwise_cons.1 hdistinct
      unfold finalizeEpoch at hstep
      split at hstep
      · -- an epoch without fills is passed over
        rename_i hempty
        cases hstep
        have hih := ih hfills h (fun x hx => hready x (List.mem_cons_of_mem _ hx)) hdistinct hrest
        refine { hih with skipped := fun id hid => ?_, written := fun x hx hsel => ?_ }
        · exact hih.skipped id fun x hx => hid x (List.mem_cons_of_mem _ hx)
        · rcases List.mem_cons.1 hx with rfl | hx
          · exact absurd hempty hsel
          · exact hih.written x hx hsel
      · rename_i hsel
        have hs := saved_of_saveEpoch hstep
        obtain ⟨hcarried, hkey, hgen⟩ := hready e List.mem_cons_self
        have hcarried' : Carried w (finalizedEpoch w.store epochs p now e) := hcarried
        have hu : Sound u := by
          refine hs.sound h hcarried' (fun _ => ?_) hgen
          obtain ⟨f, hf⟩ := List.exists_mem_of_ne_nil _ hsel
          simp only [selectedFills, List.mem_filter, decide_eq_true_eq] at hf
          exact ⟨f, hkey ▸ hfills f hf.1, hf.2⟩
        have hstore := hs.store
        have hready' : ∀ x ∈ todo, Ready u key x := by
          intro x hx
          obtain ⟨hc, hk, hg⟩ := hready x (List.mem_cons_of_mem _ hx)
          refine ⟨?_, hk, fun hopening => hg (hs.openingCheckpoint ▸ hopening)⟩
          have hother : u.epochs.get? x.accountingEpochId = w.epochs.get? x.accountingEpochId :=
            hs.others (hapart x hx).symm
          unfold Carried at hc ⊢
          rw [hother]
          exact hc
        have hfills' : ∀ f ∈ p.fills, f ∈ assetFills u key := by
          intro f hf
          have := hfills f hf
          unfold assetFills at this ⊢
          rwa [hstore]
        have hih := ih hfills' hu hready' hdistinct hrest
        refine { sound := hih.sound, frame := ?_, lookup := ?_, skipped := ?_, written := ?_ }
        · rw [hih.frame, hs.frame]
        · exact fun id x hx => hih.lookup id x (hs.lookup_keep h hcarried' hx)
        · intro id hid
          have hne : id ≠ e.accountingEpochId := fun hsame =>
            hsel (hid e List.mem_cons_self hsame.symm)
          rw [hih.skipped id fun x hx => hid x (List.mem_cons_of_mem _ hx)]
          exact hs.others hne
        · intro x hx hxsel
          rcases List.mem_cons.1 hx with rfl | hx
          · refine ⟨hs.opening, _, ⟨w, rfl⟩, ?_, fun hrec => ⟨?_, ?_⟩⟩
            · rw [← hs.self]
              refine hih.skipped _ fun y hy hsame => ?_
              exact absurd hsame.symm (hapart y hy)
            · exact hih.lookup _ _ (hs.lookup h hcarried' hrec)
            · exact (Saved.versions h hcarried').2.2.2 hrec
          · have hleaves := hih.written x hx hxsel
            rw [hstore] at hleaves
            exact ⟨hs.openingCheckpoint ▸ hleaves.1, hleaves.2⟩

theorem mem_sortedSet {xs : List String} {x : String} : x ∈ sortedSet xs ↔ x ∈ xs := by
  unfold sortedSet
  rw [(List.perm_insertionSort (· ≤ ·) _).mem_iff, List.mem_dedup]

theorem mem_historicalIntents {id : String} : id ∈ historicalIntents w key p ↔
    (∃ f ∈ p.fills, f.tradeIntentId = id) ∧ id ∉ assignedIntents (epochsFor w key) := by
  simp [historicalIntents, mem_sortedSet]

theorem mem_epochsFor {e : AccountingEpoch} :
    e ∈ epochsFor w key ↔ e ∈ w.epochs ∧ e.canonicalAssetKey = key := by
  simp [epochsFor, Table.mem_def]

theorem joinHistory_id (historyId : String) (ids : List String) (e : AccountingEpoch) :
    (e.joinHistory historyId ids).accountingEpochId = e.accountingEpochId := by
  unfold AccountingEpoch.joinHistory
  split <;> rfl

theorem ready_of_mem (h : Sound w) {e : AccountingEpoch} (he : e ∈ epochsFor w key)
    (f : AccountingEpoch → AccountingEpoch)
    (hf : ∃ xs r, f e = { e with
      tradeIntentIds := xs
      reconciledAt := r }) : Ready w key (f e) := by
  obtain ⟨xs, r, hf⟩ := hf
  obtain ⟨hmem, hkey⟩ := mem_epochsFor.1 he
  have hget : w.epochs.get? e.accountingEpochId = some e := Table.get?_eq_some_iff.2 ⟨hmem, rfl⟩
  rw [hf]
  refine ⟨?_, hkey, fun hopening => h.generation hopening e hmem⟩
  unfold Carried
  dsimp only
  rw [hget]
  exact ⟨rfl, rfl, rfl⟩

theorem ready_newEpoch {id : String} {start : Option ℚ} {ids : List String}
    (hnone : w.epochs.get? id = none) : Ready w key (newEpoch w key id now start ids) := by
  refine ⟨?_, rfl, fun hopening => ?_⟩
  · unfold Carried
    dsimp only [newEpoch]
    rw [hnone]
    exact ⟨rfl, rfl, rfl⟩
  · unfold newEpoch
    dsimp only
    rw [hopening]
    rfl

/-- The identity of the history epoch is of this instrument. -/
def HistoryOf (w : Accounts) (key historyId : String) : Prop :=
  ∀ e ∈ w.epochs.rows, e.accountingEpochId = historyId → e.canonicalAssetKey = key

instance (w : Accounts) (key historyId : String) : Decidable (HistoryOf w key historyId) :=
  inferInstanceAs (Decidable (∀ e ∈ w.epochs.rows, _))

theorem HistoryOf.get?_eq_none (hhistory : HistoryOf w key historyId)
    (hnone : ∀ e ∈ epochsFor w key, e.accountingEpochId ≠ historyId) :
    w.epochs.get? historyId = none := by
  refine Table.get?_eq_none_iff.2 fun e he hid => ?_
  exact hnone e (mem_epochsFor.2 ⟨he, hhistory e he hid⟩) hid

theorem ready_finalizedEpochs (h : Sound w) (hhistory : HistoryOf w key historyId) :
    ∀ e ∈ finalizedEpochs w key historyId p, Ready w key e := by
  intro x hx
  have hself : ∀ e ∈ epochsFor w key, Ready w key e := fun e he =>
    ready_of_mem h he id ⟨e.tradeIntentIds, e.reconciledAt, rfl⟩
  unfold finalizedEpochs at hx
  dsimp only at hx
  split at hx
  · exact hself x hx
  · split at hx
    · obtain ⟨e, he, rfl⟩ := List.mem_map.1 hx
      refine ready_of_mem h he _ ?_
      unfold AccountingEpoch.joinHistory
      split
      · exact ⟨_, _, rfl⟩
      · exact ⟨e.tradeIntentIds, e.reconciledAt, rfl⟩
    · rename_i hnone
      rcases List.mem_append.1 hx with hx | hx
      · exact hself x hx
      · obtain rfl := List.mem_singleton.1 hx
        have hget : w.epochs.get? historyId = none :=
          hhistory.get?_eq_none fun e he hid => hnone (List.any_eq_true.2 ⟨e, he, by simp [hid]⟩)
        have hready : Ready w key (newEpoch w key historyId (firstFilledAt p.fills) (some 0)
            (historicalIntents w key p)) := ready_newEpoch hget
        exact ⟨hready.carried, hready.key, hready.generation⟩

theorem epochsFor_distinct (w : Accounts) (key : String) :
    (epochsFor w key).Pairwise fun a b => a.accountingEpochId ≠ b.accountingEpochId :=
  (w.epochs.keyed.imp fun h => h.1).filter _

theorem finalizedEpochs_distinct :
    (finalizedEpochs w key historyId p).Pairwise fun a b =>
      a.accountingEpochId ≠ b.accountingEpochId := by
  have hdistinct := epochsFor_distinct w key
  unfold finalizedEpochs
  dsimp only
  split
  · exact hdistinct
  · split
    · refine List.pairwise_map.2 (hdistinct.imp fun {a b} hne => ?_)
      rw [joinHistory_id, joinHistory_id]
      exact hne
    · rename_i hnone
      refine List.pairwise_append.2 ⟨hdistinct, List.pairwise_singleton _ _, ?_⟩
      intro a ha b hb
      obtain rfl := List.mem_singleton.1 hb
      exact fun hid => hnone (List.any_eq_true.2 ⟨a, ha, beq_iff_eq.2 hid⟩)

theorem exists_finalizedEpoch (historyId : String) (p : Population) {e : AccountingEpoch}
    (he : e ∈ epochsFor w key) :
    ∃ x ∈ finalizedEpochs w key historyId p, x.accountingEpochId = e.accountingEpochId ∧
      ∀ id, id ∈ x.tradeIntentIds ↔ id ∈ e.tradeIntentIds ∨
        e.accountingEpochId = historyId ∧ id ∈ historicalIntents w key p := by
  unfold finalizedEpochs
  dsimp only
  split
  · rename_i hnone
    exact ⟨e, he, rfl, by simp [hnone]⟩
  · split
    · refine ⟨_, List.mem_map_of_mem he, joinHistory_id _ _ _, fun id => ?_⟩
      unfold AccountingEpoch.joinHistory
      split
      · rename_i hid
        simp [mem_sortedSet, hid]
      · rename_i hid
        simp [hid]
    · rename_i hnone
      have hne : e.accountingEpochId ≠ historyId := fun hid =>
        hnone (List.any_eq_true.2 ⟨e, he, by simp [hid]⟩)
      exact ⟨e, List.mem_append_left _ he, rfl, by simp [hne]⟩

/-- **A finalisation**, as a whole. -/
theorem finalizes_of_ok (h : Sound w) (hhistory : HistoryOf w key historyId)
    (hfills : p.fills = assetFills w key)
    (hok : finalizePopulation w key historyId p now = .ok w') :
    ∃ u, u.epochs = w.epochs ∧ u.store = w.store ∧ u.opening = w.opening ∧
      u.checkpoints = w.checkpoints ∧ p.proof ∈ u.populations ∧
        Finalizes u (finalizedEpochs w key historyId p) p now
          (finalizedEpochs w key historyId p) w' := by
  unfold finalizePopulation at hok
  obtain ⟨inbox, -, hok⟩ := except_bind_eq_ok.1 hok
  let u : Accounts := { w with
    inbox := inbox
    populations := if p.proof ∈ w.populations then w.populations
      else w.populations ++ [p.proof] }
  have hproof : p.proof ∈ u.populations := by
    show p.proof ∈ if p.proof ∈ w.populations then w.populations else w.populations ++ [p.proof]
    split
    · assumption
    · exact List.mem_append_right _ (List.mem_singleton.2 rfl)
  have hu : Sound u :=
    ⟨h.receipts, h.current, h.superseded, h.issued, h.filled, h.generation⟩
  have hready : ∀ e ∈ finalizedEpochs w key historyId p, Ready u key e := by
    intro x hx
    have hready := ready_finalizedEpochs (p := p) h hhistory x hx
    exact ⟨hready.carried, hready.key, hready.generation⟩
  have hown : ∀ f ∈ p.fills, f ∈ assetFills u key := by
    rw [hfills]
    exact fun f hf => hf
  exact ⟨u, rfl, rfl, rfl, rfl, hproof,
    finalizes_of_foldlM hown hu hready finalizedEpochs_distinct hok⟩

end Finalize

/-! ### What an epoch holds back -/

section Quiet

variable (verified : PopulationProof → Pagination → Store → Bool)
variable {w w' : Accounts} {key historyId : String} {p : Population} {now : Instant}
  {e : AccountingEpoch} {t : String}

/-- An epoch is pending, and so refuses every new entry of its instrument. -/
def HoldsBack (w : Accounts) (key id : String) : Prop :=
  ∃ e ∈ pendingEpochs w key, e.accountingEpochId = id

/-- The independent check reports an epoch. -/
def Reported (w : Accounts) (id : String) : Prop :=
  ∃ text, (Subject.epoch id, text) ∈ checkpointIssues verified w

/-- An intent was closed before an order reached the broker, and no fill carries it. -/
structure NeverSent (w : Accounts) (e : AccountingEpoch) (t : String) : Prop where
  listed : t ∈ e.tradeIntentIds
  rejected : (w.store.tradeIntents.get? t).map (fun i => i.status) = some .rejected
  unfilled : ∀ f ∈ w.store.fills, f.tradeIntentId ≠ t

/-- The evidence of a population is complete for an epoch that lists an intent: the quantities
agree, the fees are evidenced, every order of another intent is over, and the population was read
to its end, belongs to the generation and is verified. -/
structure Complete (w : Accounts) (key historyId : String) (p : Population) (e : AccountingEpoch)
    (t : String) : Prop where
  conserved : netQuantity p e = endingQuantity (finalizedEpochs w key historyId p) p e
  evidenced : feeEvidenced p e = true
  closed : ∀ id ∈ e.tradeIntentIds, id ≠ t → isClosed w.store id = true
  read : populationRead p = true
  pages : ∀ pages ∈ p.pagination, verified p.proof pages w.store = true
  membership : p.proof.generationMembership = w.opening.map (·.toGenerationReference)

instance (w : Accounts) (e : AccountingEpoch) (t : String) : Decidable (NeverSent w e t) :=
  decidable_of_iff (t ∈ e.tradeIntentIds ∧
      (w.store.tradeIntents.get? t).map (fun i => i.status) = some .rejected ∧
        ∀ f ∈ w.store.fills, f.tradeIntentId ≠ t)
    ⟨fun h => ⟨h.1, h.2.1, h.2.2⟩, fun h => ⟨h.listed, h.rejected, h.unfilled⟩⟩

instance (w : Accounts) (key historyId : String) (p : Population) (e : AccountingEpoch)
    (t : String) : Decidable (Complete verified w key historyId p e t) :=
  decidable_of_iff (netQuantity p e = endingQuantity (finalizedEpochs w key historyId p) p e ∧
      feeEvidenced p e = true ∧
      (∀ id ∈ e.tradeIntentIds, id ≠ t → isClosed w.store id = true) ∧ populationRead p = true ∧
      (∀ pages ∈ p.pagination, verified p.proof pages w.store = true) ∧
      p.proof.generationMembership = w.opening.map (·.toGenerationReference))
    ⟨fun h => ⟨h.1, h.2.1, h.2.2.1, h.2.2.2.1, h.2.2.2.2.1, h.2.2.2.2.2⟩,
      fun h => ⟨h.conserved, h.evidenced, h.closed, h.read, h.pages, h.membership⟩⟩

/-- The epoch has a fill of another intent.  The epoch of the instrument's history gets the fills
of intents that no epoch lists. -/
def HasFill (w : Accounts) (key historyId : String) (e : AccountingEpoch) (t : String) : Prop :=
  ∃ f ∈ assetFills w key, f.tradeIntentId ≠ t ∧ (f.tradeIntentId ∈ e.tradeIntentIds ∨
    e.accountingEpochId = historyId ∧ f.tradeIntentId ∉ assignedIntents (epochsFor w key))

instance (w : Accounts) (key historyId : String) (e : AccountingEpoch) (t : String) :
    Decidable (HasFill w key historyId e t) :=
  inferInstanceAs (Decidable (∃ f ∈ assetFills w key, _))

variable {verified}

theorem mem_checkpointIssues {id text : String} :
    (Subject.epoch id, text) ∈ checkpointIssues verified w ↔
      ∃ x ∈ w.epochs, epochIssue verified w x = some text ∧ x.accountingEpochId = id := by
  simp [checkpointIssues, Table.mem_def]

/-- An epoch without fills on record is reported. -/
theorem reported_of_unfilled {x : AccountingEpoch} (hx : x ∈ w.epochs)
    (hnone : expectedFills w x = []) : Reported verified w x.accountingEpochId := by
  have hdeclares : declaresFills w x = false := by
    simp [declaresFills, hnone]
  have hissue : epochIssue verified w x = some "CHECKPOINT_EPOCH_FILL_POPULATION_MISMATCH" := by
    simp [epochIssue, hdeclares]
  exact ⟨_, mem_checkpointIssues.2 ⟨x, hx, hissue, rfl⟩⟩

/-- What is reported of an epoch is wrong with its row. -/
theorem not_reported_of_row {x : AccountingEpoch} (hget : w.epochs.get? x.accountingEpochId = some x)
    (hissue : epochIssue verified w x = none) : ¬ Reported verified w x.accountingEpochId := by
  rintro ⟨text, htext⟩
  obtain ⟨y, hy, hissue', hid⟩ := mem_checkpointIssues.1 htext
  obtain rfl := Table.eq_of_recordId hy (Table.get?_eq_some_iff.1 hget).1 hid
  rw [hissue] at hissue'
  cases hissue'

theorem nodup_fillIds (w : Accounts) (key : String) (q : Fill → Bool) :
    (((assetFills w key).filter q).map fun f => f.fillId).Nodup := by
  refine List.pairwise_map.2 ?_
  exact ((w.store.fills.keyed.imp fun h => h.1).filter _).filter _

/-- A reconciled epoch that declares its fills, with the receipt of its checkpoint and a verified
population, is not reported. -/
theorem epochIssue_eq_none {x : AccountingEpoch} {proof : PopulationProof} {pages : Pagination}
    {c : QuantityConservation} {id : CheckpointId} (hdeclares : declaresFills w x = true)
    (hstatus : x.feeAccountingStatus = .reconciledNet) (hid : x.checkpointId = some id)
    (hlookup : w.checkpoints.lookup id = some x)
    (hversion : id = ⟨x.accountingEpochId, x.checkpointVersion, x.populationProof⟩)
    (hactive : id ∉ x.supersededCheckpointIds) (hproof : x.populationProof = some proof)
    (hpages : x.paginationProof = some pages) (hc : x.conservation = some c)
    (hrecord : proof ∈ w.populations) (hmembership : x.generation = proof.generationMembership)
    (hverified : verified proof pages w.store = true)
    (hconserved : c.startingBrokerQuantity + c.buys - c.sells - c.assetFees
      = c.endingBrokerQuantity) (hnet : x.netInventoryQuantity = some c.endingBrokerQuantity) :
    epochIssue verified w x = none := by
  have hmember : verifyMembership x proof.generationMembership = .ok () := by
    cases hm : proof.generationMembership with
    | none => simp [verifyMembership, hmembership, hm, raiseIf]
    | some membership => simp [verifyMembership, hmembership, hm, raiseIf]
  have hpopulation : verifyPopulation verified w x = .ok () := by
    unfold verifyPopulation
    rw [hproof, hpages, hc]
    simp [hrecord, hmember, hverified, hconserved, hnet, raiseIf, bind, Except.bind]
  have hcheckpoint : verifyCheckpoint verified w x = .ok () := by
    unfold verifyCheckpoint
    rw [hid]
    simp [hstatus, hlookup, hactive, hpopulation, raiseIf, bind, Except.bind, ← hversion]
  unfold epochIssue
  rw [if_pos hdeclares, hcheckpoint]

/-- The epoch that a finalisation goes through in place of the one on record. -/
theorem selectedFills_ne_nil {x : AccountingEpoch} (hunfilled : ∀ f ∈ w.store.fills, f.tradeIntentId ≠ t)
    (hfills : p.fills = assetFills w key)
    (hintents : ∀ id, id ∈ x.tradeIntentIds ↔ id ∈ e.tradeIntentIds ∨
      e.accountingEpochId = historyId ∧ id ∈ historicalIntents w key p) :
    selectedFills p x ≠ [] ↔ HasFill w key historyId e t := by
  have hmem : ∀ f, f ∈ selectedFills p x ↔ f ∈ assetFills w key ∧ (f.tradeIntentId ∈ e.tradeIntentIds ∨
      e.accountingEpochId = historyId ∧
        f.tradeIntentId ∉ assignedIntents (epochsFor w key)) := by
    intro f
    simp only [selectedFills, List.mem_filter, decide_eq_true_eq, hintents, mem_historicalIntents,
      hfills]
    constructor
    · rintro ⟨hf, hlisted | ⟨hid, -, hnew⟩⟩
      · exact ⟨hf, .inl hlisted⟩
      · exact ⟨hf, .inr ⟨hid, hnew⟩⟩
    · rintro ⟨hf, hlisted | ⟨hid, hnew⟩⟩
      · exact ⟨hf, .inl hlisted⟩
      · exact ⟨hf, .inr ⟨hid, ⟨f, hf, rfl⟩, hnew⟩⟩
  constructor
  · intro hne
    obtain ⟨f, hf⟩ := List.exists_mem_of_ne_nil _ hne
    obtain ⟨hown, hlisted⟩ := (hmem f).1 hf
    have hstored : f ∈ w.store.fills := List.mem_of_mem_filter hown
    exact ⟨f, hown, hunfilled f hstored, hlisted⟩
  · rintro ⟨f, hf, -, hlisted⟩ hnil
    have := (hmem f).2 ⟨hf, hlisted⟩
    rw [hnil] at this
    cases this

theorem quiet_of_leaves {u : Accounts} {x : AccountingEpoch} {epochs : List AccountingEpoch}
    (hkey : x.canonicalAssetKey = key) (hsel : selectedFills p x ≠ [])
    (hfills : p.fills = assetFills w' key) (hrecord : p.proof ∈ w'.populations)
    (hsound : Sound w') (hopening : w'.opening = u.opening)
    (hstate : finalState u.store epochs p x = .reconciledNet)
    (hconserved : netQuantity p x = endingQuantity epochs p x)
    (hpages : ∃ pages, p.pagination = some pages ∧ verified p.proof pages w'.store = true)
    (hmembership : p.proof.generationMembership = u.opening.map (·.toGenerationReference))
    (hleaves : Leaves u w' (finalizedEpoch u.store epochs p now x)) :
    ¬ HoldsBack w' key x.accountingEpochId ∧ ¬ Reported verified w' x.accountingEpochId := by
  obtain ⟨hverify, saved, ⟨v, rfl⟩, hget, hreceipt⟩ := hleaves
  obtain ⟨hlookup, hid, hversions⟩ := hreceipt hstate
  -- of the finalised epoch only the versions were changed
  have hsavedId : (savedEpoch v (finalizedEpoch u.store epochs p now x)).accountingEpochId
      = x.accountingEpochId := savedEpoch_accountingEpochId
  have hstatus : (savedEpoch v (finalizedEpoch u.store epochs p now x)).feeAccountingStatus
      = .reconciledNet := savedEpoch_feeAccountingStatus.trans hstate
  have hproof := savedEpoch_field (w := v) (e := finalizedEpoch u.store epochs p now x)
    (·.populationProof) fun _ _ _ _ => rfl
  have hpagination := savedEpoch_field (w := v) (e := finalizedEpoch u.store epochs p now x)
    (·.paginationProof) fun _ _ _ _ => rfl
  have hconservation := savedEpoch_field (w := v) (e := finalizedEpoch u.store epochs p now x)
    (·.conservation) fun _ _ _ _ => rfl
  have hnet := savedEpoch_field (w := v) (e := finalizedEpoch u.store epochs p now x)
    (·.netInventoryQuantity) fun _ _ _ _ => rfl
  have hfillIds := savedEpoch_field (w := v) (e := finalizedEpoch u.store epochs p now x)
    (·.fillIds) fun _ _ _ _ => rfl
  have hintents : (savedEpoch v (finalizedEpoch u.store epochs p now x)).tradeIntentIds
      = x.tradeIntentIds := savedEpoch_tradeIntentIds
  have hsavedKey : (savedEpoch v (finalizedEpoch u.store epochs p now x)).canonicalAssetKey
      = key := savedEpoch_canonicalAssetKey.trans hkey
  have hgeneration : (savedEpoch v (finalizedEpoch u.store epochs p now x)).generation
      = x.generation := savedEpoch_generation
  generalize hs : savedEpoch v (finalizedEpoch u.store epochs p now x) = saved at *
  have hmem := (Table.get?_eq_some_iff.1 hget).1
  constructor
  · rintro ⟨y, hy, hyid⟩
    simp only [pendingEpochs, List.mem_filter, decide_eq_true_eq, mem_epochsFor] at hy
    obtain rfl := Table.eq_of_recordId hy.1.1 hmem (hyid.trans hsavedId.symm)
    exact hy.2 hstatus
  · obtain ⟨pages, hpage, hverified⟩ := hpages
    have hexpected : expectedFills w' saved = (selectedFills p x).map fun f => f.fillId := by
      unfold expectedFills selectedFills
      rw [hsavedKey, hintents, hfills]
    have hperm : saved.fillIds.Perm (expectedFills w' saved) := by
      rw [hexpected, hfillIds]
      exact List.perm_insertionSort _ _
    have hnodup : saved.fillIds.Nodup := hperm.nodup_iff.2 (nodup_fillIds w' _ _)
    have hnonempty : expectedFills w' saved ≠ [] := by
      rw [hexpected]
      simpa using hsel
    have hdeclares : declaresFills w' saved = true := by
      simp only [declaresFills, Bool.and_eq_true, Bool.not_eq_true', List.isEmpty_eq_false_iff,
        decide_eq_true_eq, List.all_eq_true, List.contains_iff_mem]
      exact ⟨⟨⟨hnonempty, hnodup⟩, fun id hid => hperm.mem_iff.1 hid⟩,
        fun id hid => hperm.mem_iff.2 hid⟩
    have hmember : saved.generation = p.proof.generationMembership := by
      rw [hmembership]
      cases hopen : u.opening with
      | none => exact hsound.generation (hopening.trans hopen) saved hmem
      | some c =>
          unfold verifyOpening at hverify
          rw [hopen] at hverify
          dsimp only at hverify
          split at hverify
          · rename_i hreference
            exact hgeneration.trans hreference
          · cases hverify
    have hactive : (⟨x.accountingEpochId, saved.checkpointVersion, some p.proof⟩ : CheckpointId)
        ∉ saved.supersededCheckpointIds := fun hc => absurd (hversions _ hc) (lt_irrefl _)
    have hrow : w'.epochs.get? saved.accountingEpochId = some saved := by
      rw [hsavedId]
      exact hget
    have hversion : (⟨x.accountingEpochId, saved.checkpointVersion, some p.proof⟩ : CheckpointId)
        = ⟨saved.accountingEpochId, saved.checkpointVersion, saved.populationProof⟩ := by
      rw [hsavedId, hproof]
      rfl
    rw [← hsavedId]
    exact not_reported_of_row hrow (epochIssue_eq_none hdeclares hstatus hid hlookup hversion
      hactive hproof (hpagination.trans hpage) hconservation hrecord hmember hverified hconserved
      (hnet.trans (if_pos hstate)))

/-- After a finalisation with complete evidence, from sound accounts: the epoch of an intent that was
closed unsent holds nothing back, and is not reported, if and only if the epoch has a fill of
another intent. -/
theorem quiet_iff_hasFill (h : Sound w) (hhistory : HistoryOf w key historyId)
    (he : e ∈ epochsFor w key) (hnever : NeverSent w e t) (hfills : p.fills = assetFills w key)
    (hcomplete : ∀ x ∈ finalizedEpochs w key historyId p,
      x.accountingEpochId = e.accountingEpochId → Complete verified w key historyId p x t)
    (hok : finalizePopulation w key historyId p now = .ok w') :
    (¬ HoldsBack w' key e.accountingEpochId ↔ HasFill w key historyId e t) ∧
      (¬ Reported verified w' e.accountingEpochId ↔ HasFill w key historyId e t) := by
  obtain ⟨u, hepochs, hstore, hopening, -, hrecord, hfinal⟩ := finalizes_of_ok h hhistory hfills hok
  obtain ⟨x, hx, hid, hintents⟩ := exists_finalizedEpoch historyId p he
  obtain ⟨hmem, hkey⟩ := mem_epochsFor.1 he
  have hstore' : w'.store = w.store := by
    rw [hfinal.frame, ← hstore]
  have hsel := selectedFills_ne_nil (w := w) hnever.unfilled hfills hintents
  by_cases hfilled : HasFill w key historyId e t
  · have hselected := hsel.2 hfilled
    have hc := hcomplete x hx hid
    have hclosed : x.tradeIntentIds.all (isClosed w.store) = true := by
      rw [List.all_eq_true]
      intro id hlisted
      by_cases hsame : id = t
      · obtain ⟨intent, hget, hstatus⟩ := Option.map_eq_some_iff.1 hnever.rejected
        rw [hsame]
        simp [isClosed, hget, hstatus, closedStatuses]
      · exact hc.closed id hlisted hsame
    have hstate : finalState u.store (finalizedEpochs w key historyId p) p x = .reconciledNet := by
      unfold finalState feeComplete
      rw [hstore, if_pos]
      exact ⟨hc.conserved, by rw [hc.evidenced, hclosed, hc.read]; rfl⟩
    have hpages : ∃ pages, p.pagination = some pages ∧
        verified p.proof pages w'.store = true := by
      have hread := hc.read
      unfold populationRead at hread
      cases hpage : p.pagination with
      | none => simp [hpage] at hread
      | some pages => exact ⟨pages, rfl, hstore' ▸ hc.pages pages hpage⟩
    have hready := ready_finalizedEpochs (p := p) h hhistory x hx
    have hboth : ¬ HoldsBack w' key x.accountingEpochId ∧
        ¬ Reported verified w' x.accountingEpochId := quiet_of_leaves hready.key hselected
      (by rw [hfills, assetFills, assetFills, hstore']) (by rw [hfinal.frame]; exact hrecord)
      hfinal.sound (by rw [hfinal.frame]) hstate hc.conserved hpages
      (by rw [hopening]; exact hc.membership) (hfinal.written x hx hselected)
    rw [hid] at hboth
    exact ⟨iff_of_true hboth.1 hfilled, iff_of_true hboth.2 hfilled⟩
  · -- the finalisation passes over the epoch, which stays as it was reserved
    have hempty : selectedFills p x = [] := not_not.1 fun hne => hfilled (hsel.1 hne)
    have hget : w'.epochs.get? e.accountingEpochId = some e := by
      rw [hfinal.skipped e.accountingEpochId fun y hy hyid => ?_, hepochs]
      · exact Table.get?_eq_some_iff.2 ⟨hmem, rfl⟩
      · have : Std.Symm fun a b : AccountingEpoch => a.accountingEpochId ≠ b.accountingEpochId :=
          ⟨fun _ _ hne => hne.symm⟩
        have hsame : y = x := by
          by_contra hne
          exact finalizedEpochs_distinct.forall hy hx hne (hyid.trans hid.symm)
        rw [hsame]
        exact hempty
    have hmem' := (Table.get?_eq_some_iff.1 hget).1
    have hnone : ∀ f ∈ assetFills w key, f.tradeIntentId ∉ e.tradeIntentIds := by
      intro f hf hlisted
      exact hfilled ⟨f, hf, hnever.unfilled f (List.mem_of_mem_filter hf), .inl hlisted⟩
    have hpending : e.feeAccountingStatus ≠ .reconciledNet := by
      intro hrec
      obtain ⟨f, hf, hlisted⟩ := h.filled e hmem hrec
      exact hnone f (hkey ▸ hf) hlisted
    have hholds : HoldsBack w' key e.accountingEpochId := by
      refine ⟨e, ?_, rfl⟩
      simp only [pendingEpochs, List.mem_filter, decide_eq_true_eq, mem_epochsFor]
      exact ⟨⟨hmem', hkey⟩, hpending⟩
    have hreported : Reported verified w' e.accountingEpochId := by
      refine reported_of_unfilled hmem' ?_
      unfold expectedFills
      rw [List.map_eq_nil_iff, List.filter_eq_nil_iff, hkey]
      intro f hf
      have hf' : f ∈ assetFills w key := by
        unfold assetFills at hf ⊢
        rwa [hstore'] at hf
      simpa using hnone f hf'
    exact ⟨iff_of_false (not_not.2 hholds) hfilled, iff_of_false (not_not.2 hreported) hfilled⟩

end Quiet

/-! ### Runs -/

/-- The transactions on epochs, and what else happens to the database. -/
inductive Event
  /-- Anything that writes no fills: intents are approved, sent and closed, lots settle. -/
  | elsewhere (t : Store)
  | recordFill (fill : Fill)
  | bindOpening (checkpoint : OpeningCheckpoint)
  | adopt (adoptionId key : String) (quantity : ℚ) (adoptedAt : Instant)
  | reserve (intent : TradeIntent) (brokerQuantity : ℚ) (protective : Bool) (now : Instant)
  | recordGrossFill (fill : Fill)
  | finalize (key historyId : String) (p : Population) (now : Instant)
  | block (key historyId reason : String) (now : Instant) (pending : Bool)

/-- The epoch named after an intent lists it, for the intent's own instrument. -/
def EpochOf (w : Accounts) (key tradeIntentId : String) : Prop :=
  ∀ e ∈ w.epochs.rows, e.accountingEpochId = "crypto_epoch:" ++ tradeIntentId →
    e.canonicalAssetKey = key ∧ tradeIntentId ∈ e.tradeIntentIds

instance (w : Accounts) (key tradeIntentId : String) : Decidable (EpochOf w key tradeIntentId) :=
  inferInstanceAs (Decidable (∀ e ∈ w.epochs.rows, _))

/-- `adopted_epoch_payload`. -/
def adoptedEpoch (w : Accounts) (adoptionId key : String) (quantity : ℚ) (adoptedAt : Instant) :
    AccountingEpoch :=
  { newEpoch w key ("crypto_epoch:adopted:" ++ adoptionId) adoptedAt (some quantity) [] with
    adoptionId := some adoptionId }

/-- One transaction; a transaction that raises changes nothing.  Identities are those of one
instrument. -/
def step (w : Accounts) : Event → Option Accounts
  | .elsewhere t => some { w with store := { t with fills := w.store.fills } }
  | .recordFill fill => some (w.addFill fill)
  | .bindOpening checkpoint =>
      if w.opening.isNone then some { w with opening := some checkpoint } else none
  | .adopt adoptionId key quantity adoptedAt =>
      if (w.epochs.get? ("crypto_epoch:adopted:" ++ adoptionId)).isNone then
        (saveEpoch w (adoptedEpoch w adoptionId key quantity adoptedAt)).toOption
      else none
  | .reserve intent brokerQuantity protective now =>
      if EpochOf w (assetIdentityKey intent.asset) intent.tradeIntentId then
        (reserveEpoch w intent brokerQuantity protective now).toOption.map fun r => r.2
      else none
  | .recordGrossFill fill =>
      if EpochOf w (assetIdentityKey fill.asset) fill.tradeIntentId then
        (recordGrossFill w fill).toOption
      else none
  | .finalize key historyId p now =>
      if HistoryOf w key historyId then
        (finalizePopulation w key historyId { p with fills := assetFills w key } now).toOption
      else none
  | .block key historyId reason now pending =>
      if HistoryOf w key historyId then (blockAsset w key historyId reason now pending).toOption
      else none

/-- Transactions in any order. -/
def machine : Machine Accounts Event := ⟨step⟩

section Runs

variable {w w' : Accounts} {key historyId : String} {p : Population} {now : Instant}
  {e : AccountingEpoch}

theorem eq_ok_of_toOption {α ε : Type} {x : Except ε α} {a : α} (h : x.toOption = some a) :
    x = .ok a := by
  cases x with
  | ok b => exact congrArg Except.ok (Option.some.inj h)
  | error e => cases h

theorem sound_saveEpoch (h : Sound w) (hready : Ready w key e)
    (hpending : e.feeAccountingStatus ≠ .reconciledNet) (hok : saveEpoch w e = .ok w') :
    Sound w' :=
  (saved_of_saveEpoch hok).sound h hready.carried (fun hrec => absurd hrec hpending)
    hready.generation

theorem Sound.addFill (h : Sound w) (fill : Fill) : Sound (w.addFill fill) := by
  refine ⟨h.receipts, h.current, h.superseded, h.issued, fun e he hrec => ?_, h.generation⟩
  obtain ⟨f, hf, hlisted⟩ := h.filled e he hrec
  simp only [assetFills, Accounts.addFill, List.mem_filter] at hf ⊢
  exact ⟨f, ⟨Table.mem_createOnce_of_mem hf.1, hf.2⟩, hlisted⟩

theorem ready_join (h : Sound w) (he : e ∈ epochsFor w key) (id : String) :
    Ready w key (e.join id) :=
  ready_of_mem h he (fun e => e.join id) ⟨_, e.reconciledAt, rfl⟩

theorem sound_reserve {intent : TradeIntent} {brokerQuantity : ℚ} {protective : Bool}
    {r : Option String} (h : Sound w)
    (hid : EpochOf w (assetIdentityKey intent.asset) intent.tradeIntentId)
    (hok : reserveEpoch w intent brokerQuantity protective now = .ok (r, w')) : Sound w' := by
  have hpending : ∀ {e : AccountingEpoch}, e ∈ pendingEpochs w (assetIdentityKey intent.asset) →
      e ∈ epochsFor w (assetIdentityKey intent.asset) ∧
        e.feeAccountingStatus ≠ .reconciledNet := by
    intro e he
    simpa [pendingEpochs] using he
  unfold reserveEpoch at hok
  split at hok
  · cases hok
    exact h
  · dsimp only at hok
    split at hok
    · cases hok
      exact h
    · rename_i hown
      split at hok
      · rename_i adopted hadopted
        split at hok
        · obtain ⟨u, hsave, hok⟩ := except_bind_eq_ok.1 hok
          cases hok
          obtain ⟨hmem, hstatus⟩ := hpending (List.mem_of_mem_filter (List.mem_of_getLast? hadopted))
          exact sound_saveEpoch h (ready_join h hmem _) hstatus hsave
        · cases hok
      · split at hok
        · cases hok
        · split at hok
          · rename_i pending hlast
            split at hok
            · obtain ⟨u, hsave, hok⟩ := except_bind_eq_ok.1 hok
              cases hok
              obtain ⟨hmem, hstatus⟩ := hpending (List.mem_of_getLast? hlast)
              exact sound_saveEpoch h (ready_join h hmem _) hstatus hsave
            · cases hok
          · obtain ⟨u, hsave, hok⟩ := except_bind_eq_ok.1 hok
            cases hok
            refine sound_saveEpoch h (ready_newEpoch ?_) (by simp [newEpoch]) hsave
            refine Table.get?_eq_none_iff.2 fun e he hsame => ?_
            obtain ⟨hkey, hlisted⟩ := hid e he hsame
            have hnone := List.find?_eq_none.1 hown e (mem_epochsFor.2 ⟨he, hkey⟩)
            exact hnone (by simpa using hlisted)

theorem ready_epochOfFill (h : Sound w) {fill : Fill}
    (hid : EpochOf w (assetIdentityKey fill.asset) fill.tradeIntentId) :
    Ready w (assetIdentityKey fill.asset) (epochOfFill w fill) := by
  unfold epochOfFill
  dsimp only
  split
  · rename_i e hfound
    exact ready_of_mem h (List.mem_of_find?_eq_some hfound) id ⟨e.tradeIntentIds, e.reconciledAt, rfl⟩
  · rename_i hnone
    refine ready_newEpoch (Table.get?_eq_none_iff.2 fun e he hsame => ?_)
    obtain ⟨hkey, hlisted⟩ := hid e he hsame
    have := List.find?_eq_none.1 hnone e (mem_epochsFor.2 ⟨he, hkey⟩)
    exact this (by simpa using hlisted)

theorem sound_recordGrossFill {fill : Fill} (h : Sound w)
    (hid : EpochOf w (assetIdentityKey fill.asset) fill.tradeIntentId)
    (hok : recordGrossFill w fill = .ok w') : Sound w' := by
  have hready := ready_epochOfFill h hid
  have hadded := h.addFill fill
  unfold recordGrossFill at hok
  obtain ⟨⟨⟩, -, hok⟩ := except_bind_eq_ok.1 hok
  dsimp only at hok
  split at hok
  · cases hok
    exact hadded
  · obtain ⟨u, hgross, hok⟩ := except_bind_eq_ok.1 hok
    have hgrossReady : Ready (w.addFill fill) (assetIdentityKey fill.asset)
        ((epochOfFill w fill).addFill fill) := ⟨hready.carried, hready.key, hready.generation⟩
    have hu := sound_saveEpoch hadded hgrossReady (by simp [AccountingEpoch.addFill]) hgross
    have hs := saved_of_saveEpoch hgross
    have hwaits : Ready u (assetIdentityKey fill.asset)
        (savedEpoch (w.addFill fill) ((epochOfFill w fill).addFill fill)).awaitFees := by
      refine ⟨?_, savedEpoch_canonicalAssetKey.trans hready.key, fun hopening => ?_⟩
      · -- the second write starts from what the first one left
        unfold Carried AccountingEpoch.awaitFees
        dsimp only
        rw [savedEpoch_accountingEpochId, hs.self]
        exact ⟨rfl, rfl, rfl⟩
      · exact savedEpoch_generation.trans (hready.generation (hs.openingCheckpoint ▸ hopening))
    exact sound_saveEpoch hu hwaits (by simp [AccountingEpoch.awaitFees]) hok

theorem sound_blockAsset {reason : String} {pending : Bool} (h : Sound w)
    (hhistory : HistoryOf w key historyId)
    (hok : blockAsset w key historyId reason now pending = .ok w') : Sound w' := by
  have hready : Ready w key (((epochsFor w key).getLast?).getD
      (newEpoch w key historyId now none [])) := by
    cases hlast : (epochsFor w key).getLast? with
    | some e =>
        exact ready_of_mem h (List.mem_of_getLast? hlast) id ⟨e.tradeIntentIds, e.reconciledAt, rfl⟩
    | none =>
        rw [List.getLast?_eq_none_iff] at hlast
        refine ready_newEpoch (hhistory.get?_eq_none ?_)
        simp [hlast]
  have hblocked : Ready w key ((((epochsFor w key).getLast?).getD
      (newEpoch w key historyId now none [])).block reason pending) :=
    ⟨hready.carried, hready.key, hready.generation⟩
  refine sound_saveEpoch h hblocked ?_ hok
  cases pending <;> simp [AccountingEpoch.block]

/-- **The step lemma.** -/
theorem sound_step {event : Event} (h : Sound w) (hstep : step w event = some w') : Sound w' := by
  cases event with
  | elsewhere t =>
      cases hstep
      exact ⟨h.receipts, h.current, h.superseded, h.issued, h.filled, h.generation⟩
  | recordFill fill =>
      cases hstep
      exact h.addFill fill
  | bindOpening checkpoint =>
      simp only [step, Option.ite_none_right_eq_some] at hstep
      obtain ⟨-, hstep⟩ := hstep
      cases hstep
      exact ⟨h.receipts, h.current, h.superseded, h.issued, h.filled, fun hnone => nomatch hnone⟩
  | adopt adoptionId key quantity adoptedAt =>
      simp only [step, Option.ite_none_right_eq_some] at hstep
      obtain ⟨hnone, hstep⟩ := hstep
      have hready : Ready w key (newEpoch w key ("crypto_epoch:adopted:" ++ adoptionId) adoptedAt
          (some quantity) []) := ready_newEpoch (Option.isNone_iff_eq_none.1 hnone)
      have hadopted : Ready w key (adoptedEpoch w adoptionId key quantity adoptedAt) :=
        ⟨hready.carried, hready.key, hready.generation⟩
      exact sound_saveEpoch h hadopted (by simp [adoptedEpoch, newEpoch]) (eq_ok_of_toOption hstep)
  | reserve intent brokerQuantity protective now =>
      simp only [step, Option.ite_none_right_eq_some, Option.map_eq_some_iff] at hstep
      obtain ⟨hid, ⟨r, u⟩, hok, rfl⟩ := hstep
      exact sound_reserve h hid (eq_ok_of_toOption hok)
  | recordGrossFill fill =>
      simp only [step, Option.ite_none_right_eq_some] at hstep
      exact sound_recordGrossFill h hstep.1 (eq_ok_of_toOption hstep.2)
  | finalize key historyId p now =>
      simp only [step, Option.ite_none_right_eq_some] at hstep
      obtain ⟨u, -, -, -, -, -, hfinal⟩ :=
        finalizes_of_ok h hstep.1 rfl (eq_ok_of_toOption hstep.2)
      exact hfinal.sound
  | block key historyId reason now pending =>
      simp only [step, Option.ite_none_right_eq_some] at hstep
      exact sound_blockAsset h hstep.1 (eq_ok_of_toOption hstep.2)

/-- **Every state reached is sound.** -/
theorem sound_of_reaches (h : machine.Reaches (fun _ _ => True) {} w) : Sound w :=
  h.invariant sound_empty fun _ _ _ hs _ hstep => sound_step hs hstep

variable {verified : PopulationProof → Pagination → Store → Bool} {t : String}

/-- **Entries that were never sent.**  In every state that the transactions reach in any order:
after a finalisation of the instrument with complete evidence, the epoch of an intent that was
closed unsent refuses no later entry, and is not reported, if and only if the epoch has a fill of
another intent. -/
theorem quiet_iff_filled (hreach : machine.Reaches (fun _ _ => True) {} w)
    (hfinal : machine.step w (.finalize key historyId p now) = some w')
    (he : e ∈ epochsFor w key) (hnever : NeverSent w e t)
    (hcomplete : ∀ x ∈ finalizedEpochs w key historyId { p with fills := assetFills w key },
      x.accountingEpochId = e.accountingEpochId →
        Complete verified w key historyId { p with fills := assetFills w key } x t) :
    (¬ HoldsBack w' key e.accountingEpochId ↔ HasFill w key historyId e t) ∧
      (¬ Reported verified w' e.accountingEpochId ↔ HasFill w key historyId e t) := by
  simp only [machine, step, Option.ite_none_right_eq_some] at hfinal
  exact quiet_iff_hasFill (sound_of_reaches hreach) hfinal.1 he hnever rfl hcomplete
    (eq_ok_of_toOption hfinal.2)

def coin : AssetIdentity :=
  { symbol := "BTC/USD", assetClass := .crypto, nativeAssetId := "alpaca:BTC/USD" }

/-- An order for the coin. -/
def coinOrder (id : String) (side : Side) (status : TradeIntentStatus) : TradeIntent :=
  { tradeIntentId := id
    idempotencyKey := "key-" ++ id
    correlationId := "correlation-" ++ id
    asset := coin
    side := side
    executionMode := .paper
    strategy := "momentum"
    createdAt := 0
    status := status }

/-- An entry is reserved and closed unsent; an exit of what was held before joins its epoch, and is
filled if there is an execution. -/
def closedUnsent (sale : Option Fill) : List Event :=
  List.flatten
    [ [.reserve (coinOrder "entry" .buy .riskApproved) 5 false 0],
      sale.toList.flatMap fun fill =>
        [.reserve (coinOrder "exit" .sell .riskApproved) 5 true 1, .recordGrossFill fill],
      [.elsewhere { tradeIntents := ((default : Table TradeIntent).createOnce
        (coinOrder "entry" .buy .rejected)).createOnce (coinOrder "exit" .sell .filled) }] ]

/-- A complete population of the coin, with the quantity that is left. -/
def coinPopulation (quantity : ℚ) : Population where
  proof := { activityIds := ["sale"], brokerQuantity := quantity }
  fills := []
  fees := []
  cashPlans := []
  lots := []
  quantity := quantity
  activities := []
  pagination := some { activityIds := ["sale"], complete := true }
  reportedFills := ["sale"]

/-- What the example runs verify of a population. -/
abbrev accepted : PopulationProof → Pagination → Store → Bool := fun _ _ _ => true

/-- The finalisation of the coin. -/
abbrev finalizeCoin (quantity : ℚ) : Event :=
  .finalize (assetIdentityKey coin) "crypto_epoch:history:coin" (coinPopulation quantity) 9

/-- The evidence on the epoch of the entry is complete. -/
abbrev CompleteCoin (w : Accounts) (quantity : ℚ) (e : AccountingEpoch) : Prop :=
  ∀ x ∈ finalizedEpochs w (assetIdentityKey coin) "crypto_epoch:history:coin"
      { coinPopulation quantity with fills := assetFills w (assetIdentityKey coin) },
    x.accountingEpochId = e.accountingEpochId →
      Complete accepted w (assetIdentityKey coin) "crypto_epoch:history:coin"
        { coinPopulation quantity with fills := assetFills w (assetIdentityKey coin) } x "entry"

/-- The execution of the exit. -/
def exitSale : Option Fill :=
  (Fill.make
    { fillId := "fill-exit"
      tradeIntentId := "exit"
      orderId := "order-exit"
      asset := coin
      side := .sell
      executionMode := .paper
      quantity := 1
      price := 100
      fees := 0
      filledAt := 2
      brokerFillId := some "sale" }).toOption

/-- With the fill of an exit in it the epoch of the entry is quiet. -/
theorem quiet_iff_filled_exit : ∃ w w' : Accounts,
    machine.step w (finalizeCoin 4) = some w' ∧ ∃ e ∈ epochsFor w (assetIdentityKey coin),
      NeverSent w e "entry" ∧ HasFill w (assetIdentityKey coin) "crypto_epoch:history:coin" e
          "entry" ∧
        ¬ HoldsBack w' (assetIdentityKey coin) e.accountingEpochId ∧
          ¬ Reported accepted w' e.accountingEpochId := by
  have hrun : (machine.run {} (closedUnsent exitSale)).any (fun w =>
      decide ((machine.step w (finalizeCoin 4)).isSome = true ∧
        ∃ e ∈ epochsFor w (assetIdentityKey coin), NeverSent w e "entry" ∧ CompleteCoin w 4 e ∧
          HasFill w (assetIdentityKey coin) "crypto_epoch:history:coin" e "entry")) = true := by
    decide +kernel
  obtain ⟨w, hreach, hsome, e, he, hnever, hcomplete, hfill⟩ := Machine.exists_of_run hrun
  obtain ⟨w', hfinal⟩ := Option.isSome_iff_exists.1 hsome
  have hquiet := quiet_iff_filled hreach hfinal he hnever hcomplete
  exact ⟨w, w', hfinal, e, he, hnever, hfill, hquiet.1.2 hfill, hquiet.2.2 hfill⟩

/-- **A lone entry that was closed unsent holds back the next one**, after a finalisation with
complete evidence, and the independent check reports its epoch. -/
theorem never_sent_blocks : ∃ w w' : Accounts, machine.Reaches (fun _ _ => True) {} w ∧
    machine.step w (finalizeCoin 5) = some w' ∧
      ∃ e ∈ epochsFor w (assetIdentityKey coin), NeverSent w e "entry" ∧ CompleteCoin w 5 e ∧
        (reserveEpoch w' (coinOrder "next" .buy .riskApproved) 5 false 10).toOption.isNone = true ∧
          (Subject.epoch e.accountingEpochId, "CHECKPOINT_EPOCH_FILL_POPULATION_MISMATCH")
            ∈ checkpointIssues accepted w' := by
  have hrun : (machine.run {} (closedUnsent none)).any (fun w =>
      (machine.step w (finalizeCoin 5)).any fun w' =>
        decide (∃ e ∈ epochsFor w (assetIdentityKey coin), NeverSent w e "entry" ∧
          CompleteCoin w 5 e ∧
          (reserveEpoch w' (coinOrder "next" .buy .riskApproved) 5 false 10).toOption.isNone
              = true ∧
            (Subject.epoch e.accountingEpochId, "CHECKPOINT_EPOCH_FILL_POPULATION_MISMATCH")
              ∈ checkpointIssues accepted w')) = true := by
    decide +kernel
  obtain ⟨w, hreach, hstep⟩ := Machine.exists_of_run (P := fun w => _ = true)
    (by simpa only [Bool.decide_eq_true] using hrun)
  obtain ⟨w', hfinal, hblocked⟩ := (Option.any_eq_true _ _).1 hstep
  exact ⟨w, w', hreach, hfinal, of_decide_eq_true hblocked⟩

end Runs

end Epochs

end TradePulse
