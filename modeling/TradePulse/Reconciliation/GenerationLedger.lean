/-
**Exactly one entry for each activity.**

Several reconcilers post the broker's cash: the checkpoint of the shares and the replay of each
coin's fees do it within a transaction of their own, a reconciliation does it after it has classified
the population in another one, and a repair outside any generation posts what it is given.  Each of
them may fail after it has posted, and the replay inserts fees itself where it finds none.

The identities of its record and of its entry are made of an activity's identity and of the recorder
its type selects, so what keeps an activity from being posted twice is that its type stays.  Every
transaction goes through the inbox of the broker's activities, which refuses a receipt that has
changed: a repair reaches it at its end, after it has posted, and is rolled back there.

Main definitions:

* `Journal`, `Call`, `perform` — the tables, and the transactions that post to them;
* `entriesOf`, `receiptsOf`, `statusesOf` — what the tables hold of an activity;
* `Sound` — the invariant: records and entries belong together.

Main results:

* `persistGenerationFees_posts` — what one call does;
* `reaches_posted` — **every activity posted has one entry and one record**, in every run.
-/

import TradePulse.Process.Machine
import TradePulse.Reconciliation.GenerationFees

set_option autoImplicit false

namespace TradePulse

namespace GenerationCash

open HistoricalFees Process Storage

/-! ### The tables -/

instance : Record CashActivity where
  recordId raw := raw.id
  uniqueValue _ := none

/-- The tables, and what happened to them. -/
structure Journal where
  /-- `broker_activity_inbox`. -/
  inbox : Table CashActivity := default
  ledger : GenerationLedger := {}
  /-- The populations that a reconciliation has classified. -/
  classified : List (List CashActivity × MembershipResult) := []
  /-- The eligible activities that were posted. -/
  posted : List CashActivity := []

def recorders : List Recorder := [.fee, .adjustment, .dividend]

theorem mem_recorders (r : Recorder) : r ∈ recorders := by
  cases r <;> simp [recorders]

/-- The entries of an activity. -/
def entriesOf (l : GenerationLedger) (id : String) : List CashLedgerEntry :=
  l.cashLedger.rows.filter fun e => recorders.any fun r => e.entryId = r.entryId id

/-- The records of an activity. -/
def receiptsOf (l : GenerationLedger) (id : String) : List GenerationReceipt :=
  l.receipts.rows.filter fun ρ => recorders.any fun r => ρ.recordId = r.recordId id

/-- The statuses of an activity. -/
def statusesOf (l : GenerationLedger) (id : String) : List DividendStatus :=
  l.dividendStatus.rows.filter fun s => s.activityId = id

/-! ### The calls -/

/-- The inbox of `classify_population` and of `finalize_population`: a receipt that has changed is
refused. -/
def keepReceipts : List CashActivity → Table CashActivity → Except Raised (Table CashActivity)
  | [], inbox => .ok inbox
  | raw :: rest, inbox => do
      raiseIf ((inbox.get? raw.id).any fun existing => existing ≠ raw)
        (.valueError ("BROKER_ACTIVITY_RECEIPT_CHANGED:" ++ raw.id))
      keepReceipts rest (inbox.createOnce raw)

/-- The activities of a call that have cash to be posted. -/
def eligibleCash (m : MembershipResult) (activities : List CashActivity) : List CashActivity :=
  activities.filter fun raw =>
    (Recorder.ofActivity raw).isSome && (m.classified.statusOf raw.id).any (·.eligible)

/-- What `replay_asset_fees` does with the fees it allocates: one that is not in the ledger is
inserted. -/
def insertCashFees :
    List CashActivity → Table CashLedgerEntry → Except Raised (Table CashLedgerEntry)
  | [], cash => .ok cash
  | raw :: rest, cash => do
      match ← Recorder.fee.receipt raw with
      | none => .error (.valueError "GENERATION_FEE_NOT_CASH")
      | some receipt =>
          let entry := Recorder.fee.cashEntry receipt
          match cash.get? entry.entryId with
          | some old => do
              raiseIf (old ≠ entry) (assetFeeIntegrity "CASH_FEE_LEDGER_RECEIPT_MISMATCH")
              insertCashFees rest cash
          | none => do
              let cash ← Quarantine.insertRow cash entry
              insertCashFees rest cash

/-- The membership that a repair outside any generation gives its activities. -/
def unbound (activities : List CashActivity) : MembershipResult where
  classified := activities.map fun raw => ⟨raw.id, .inGeneration, ""⟩
  checkpoint := none
  populationHash := []

/-- Post a population, and go on: with the fees that are allocated, and with the rest of the
transaction. -/
def postAndGoOn (m : MembershipResult) (now : Instant) (activities : List CashActivity)
    (allocated : List String) (completes : Bool) (l : GenerationLedger) :
    Except Raised GenerationLedger := do
  let (l, _) ← persistGenerationFees m now activities l
  let cash ← insertCashFees ((eligibleCash m activities).filter fun raw =>
    Recorder.ofActivity raw = some .fee ∧ raw.id ∈ allocated) l.cashLedger
  raiseIf (completes = false) ⟨.other, "transaction failed"⟩
  return { l with cashLedger := cash }

/-- The transactions.  How a population is classified does not matter. -/
inductive Call
  | classify (activities : List CashActivity) (m : MembershipResult)
  /-- It posts a population that it has classified. -/
  | post (n : ℕ) (now : Instant)
  /-- `reconcile_equity_epochs`, or `replay_asset_fees` of an instrument. -/
  | reconcile (activities : List CashActivity) (m : MembershipResult) (now : Instant)
    (allocated : List String) (completes : Bool)
  /-- `replay_asset_fees` without the proof of the pages. -/
  | repair (activities : List CashActivity) (now : Instant) (allocated : List String)
    (completes : Bool)
  /-- An entry that is not one of these recorders (`fill:cash:…`). -/
  | elsewhere (entry : CashLedgerEntry)

def broughtBy (j : Journal) : Call → List CashActivity
  | .classify activities _ => activities
  | .post n _ => (j.classified[n]?.map (·.1)).getD []
  | .reconcile activities _ _ _ _ => activities
  | .repair activities _ _ _ => activities
  | .elsewhere _ => []

def postedBy (j : Journal) : Call → List CashActivity
  | .classify _ _ => []
  | .post n _ => (j.classified[n]?.map fun p => eligibleCash p.2 p.1).getD []
  | .reconcile activities m _ _ _ => eligibleCash m activities
  | .repair activities _ _ _ => eligibleCash (unbound activities) activities
  | .elsewhere _ => []

/-- The identity of an entry is none that a recorder gives. -/
def foreign (entryId : String) : Bool :=
  recorders.all fun r => !(r.entryId "").toList.isPrefixOf entryId.toList

def perform (j : Journal) (c : Call) : Except Raised Journal :=
  match c with
  | .classify activities m => do
      let inbox ← keepReceipts activities j.inbox
      return { j with inbox := inbox, classified := j.classified ++ [(activities, m)] }
  | .post n now =>
      match j.classified[n]? with
      | none => .error ⟨.other, "nothing classified"⟩
      | some (activities, m) => do
          requireResolved m
          let (l, _) ← persistGenerationFees m now activities j.ledger
          return { j with ledger := l, posted := j.posted ++ eligibleCash m activities }
  | .reconcile activities m now allocated completes => do
      let inbox ← keepReceipts activities j.inbox
      requireResolved m
      let l ← postAndGoOn m now activities allocated completes j.ledger
      return { j with
        inbox := inbox
        ledger := l
        posted := j.posted ++ eligibleCash m activities }
  | .repair activities now allocated completes => do
      let l ← postAndGoOn (unbound activities) now activities allocated completes j.ledger
      -- `finalize_population`; after `classify_population` it finds every receipt as it is
      let inbox ← keepReceipts activities j.inbox
      return { j with
        inbox := inbox
        ledger := l
        posted := j.posted ++ eligibleCash (unbound activities) activities }
  | .elsewhere entry => do
      raiseIf (foreign entry.entryId = false) ⟨.other, "an entry of the broker"⟩
      let cash ← persist j.ledger.cashLedger entry true
      return { j with ledger := { j.ledger with cashLedger := cash } }

/-- A transaction that raises is rolled back. -/
def after (j : Journal) (c : Call) : Journal :=
  match perform j c with
  | .ok j' => j'
  | .error _ => j

/-- Calls of any reconcilers, in any order. -/
def system : Machine Journal Call := ⟨fun j c => some (after j c)⟩

/-! ### Records and entries belong together -/

/-- Activities of one identity are of one kind. -/
def OneKind (known : CashActivity → Prop) : Prop :=
  ∀ x y, known x → known y → x.id = y.id → Recorder.ofActivity x = Recorder.ofActivity y

/-- Every record is of a known activity and has its entry, and every entry of a recorder has its
record. -/
structure Sound (known : CashActivity → Prop) (l : GenerationLedger) : Prop where
  known : ∀ ρ ∈ l.receipts, known ρ.actual.activity
  record : ∀ ρ ∈ l.receipts, ∃ (r : Recorder) (receipt : CashReceipt),
    r.receipt ρ.actual.activity = .ok (some receipt) ∧ ρ.recordId = r.recordId ρ.actual.activity.id ∧
      r.cashEntry receipt ∈ l.cashLedger
  entry : ∀ e ∈ l.cashLedger, ∀ (r : Recorder) (id : String), e.entryId = r.entryId id →
    ∃ ρ ∈ l.receipts, ρ.recordId = r.recordId id

/-- An activity with this identity has a record. -/
def Recorded (l : GenerationLedger) (id : String) : Prop :=
  ∃ ρ ∈ l.receipts, ρ.actual.activity.id = id

/-- Nothing is added for what is recorded, and nothing is lost. -/
structure Grows (l l' : GenerationLedger) : Prop where
  receipts : ∀ ρ ∈ l.receipts, ρ ∈ l'.receipts
  cash : ∀ e ∈ l.cashLedger, e ∈ l'.cashLedger
  same : ∀ id, Recorded l id → entriesOf l' id = entriesOf l id ∧
    receiptsOf l' id = receiptsOf l id ∧ statusesOf l' id = statusesOf l id

theorem Grows.refl (l : GenerationLedger) : Grows l l :=
  ⟨fun _ h => h, fun _ h => h, fun _ _ => ⟨rfl, rfl, rfl⟩⟩

theorem Grows.recorded {l l' : GenerationLedger} (h : Grows l l') {id : String}
    (hid : Recorded l id) : Recorded l' id := by
  obtain ⟨ρ, hρ, hid⟩ := hid
  exact ⟨ρ, h.receipts ρ hρ, hid⟩

theorem Grows.trans {l l' l'' : GenerationLedger} (h : Grows l l') (h' : Grows l' l'') :
    Grows l l'' := by
  refine ⟨fun ρ hρ => h'.receipts ρ (h.receipts ρ hρ), fun e he => h'.cash e (h.cash e he), ?_⟩
  intro id hid
  obtain ⟨hentries, hreceipts, hstatuses⟩ := h.same id hid
  obtain ⟨hentries', hreceipts', hstatuses'⟩ := h'.same id (h.recorded hid)
  exact ⟨hentries'.trans hentries, hreceipts'.trans hreceipts, hstatuses'.trans hstatuses⟩

namespace Sound

variable {known : CashActivity → Prop} {l : GenerationLedger}

theorem mono {known' : CashActivity → Prop} (h : Sound known l) (hle : ∀ x, known x → known' x) :
    Sound known' l :=
  ⟨fun ρ hρ => hle _ (h.known ρ hρ), h.record, h.entry⟩

/-- The record of an activity is the one of its kind. -/
theorem recordId_eq (h : Sound known l) {ρ : GenerationReceipt} (hρ : ρ ∈ l.receipts)
    {r : Recorder} (hr : Recorder.ofActivity ρ.actual.activity = some r) :
    ρ.recordId = r.recordId ρ.actual.activity.id := by
  obtain ⟨r', receipt, hreceipt, hid, -⟩ := h.record ρ hρ
  have hkind := (Recorder.of_receipt hreceipt).1
  rw [hr] at hkind
  cases hkind
  exact hid

theorem unique (h : Sound known l) (hone : OneKind known) {ρ σ : GenerationReceipt}
    (hρ : ρ ∈ l.receipts) (hσ : σ ∈ l.receipts)
    (hid : ρ.actual.activity.id = σ.actual.activity.id) : ρ = σ := by
  obtain ⟨r, receipt, hreceipt, hrecord, -⟩ := h.record ρ hρ
  have hkind := (Recorder.of_receipt hreceipt).1
  have hsame := hone _ _ (h.known ρ hρ) (h.known σ hσ) hid
  have hσid := h.recordId_eq hσ (hsame ▸ hkind)
  exact Table.eq_of_recordId hρ hσ (by
    show ρ.recordId = σ.recordId
    rw [hrecord, hσid, hid])

theorem of_recordId (h : Sound known l) {ρ : GenerationReceipt} (hρ : ρ ∈ l.receipts)
    {r : Recorder} {id : String} (hid : ρ.recordId = r.recordId id) :
    ρ.actual.activity.id = id ∧ Recorder.ofActivity ρ.actual.activity = some r := by
  obtain ⟨r', receipt, hreceipt, hrecord, -⟩ := h.record ρ hρ
  obtain ⟨rfl, rfl⟩ := Recorder.recordId_inj.1 (hrecord.symm.trans hid)
  exact ⟨rfl, (Recorder.of_receipt hreceipt).1⟩

end Sound

theorem filter_eq_singleton {α : Type} [Record α] {t : Table α} {p : α → Bool} {a : α} (ha : a ∈ t)
    (hp : p a = true) (hone : ∀ b ∈ t, p b = true → b = a) : t.rows.filter p = [a] := by
  have hmem : ∀ b, b ∈ t.rows.filter p ↔ b = a := by
    intro b
    rw [List.mem_filter]
    exact ⟨fun h => hone b h.1 h.2, fun h => h ▸ ⟨ha, hp⟩⟩
  have hnodup : (t.rows.filter p).Nodup :=
    (t.keyed.imp fun {b c} hbc => fun h => hbc.1 (congrArg Record.recordId h)).filter p
  cases hrows : t.rows.filter p with
  | nil =>
      have hself := (hmem a).2 rfl
      rw [hrows] at hself
      cases hself
  | cons b rest =>
      rw [hrows] at hmem hnodup
      have hb : b = a := (hmem b).1 List.mem_cons_self
      cases rest with
      | nil => rw [hb]
      | cons c rest =>
          have hc : c = a := (hmem c).1 (by simp)
          simp [hb, hc] at hnodup

/-- **One entry and one record**: of an activity that has a record. -/
theorem Sound.posted {known : CashActivity → Prop} {l : GenerationLedger} (h : Sound known l)
    (hone : OneKind known) {ρ : GenerationReceipt} (hρ : ρ ∈ l.receipts) :
    ∃ e, entriesOf l ρ.actual.activity.id = [e] ∧
      ρ.actual.activity.netAmount = .exact e.amount ∧
      receiptsOf l ρ.actual.activity.id = [ρ] := by
  obtain ⟨r, receipt, hreceipt, hrecord, hentry⟩ := h.record ρ hρ
  obtain ⟨hkind, hreads⟩ := Recorder.of_receipt hreceipt
  refine ⟨r.cashEntry receipt, ?_, hreads.amount, ?_⟩
  · refine filter_eq_singleton hentry ?_ fun e he hid => ?_
    · refine List.any_eq_true.2 ⟨r, mem_recorders r, ?_⟩
      simp [Recorder.cashEntry, hreads.id]
    · obtain ⟨r', -, hid⟩ := List.any_eq_true.1 hid
      have hid : e.entryId = r'.entryId ρ.actual.activity.id := by simpa using hid
      -- the entry has a record, which is of the same kind
      obtain ⟨σ, hσ, hσid⟩ := h.entry e he r' _ hid
      obtain ⟨hactivity, hσkind⟩ := h.of_recordId hσ hσid
      rw [h.unique hone hσ hρ hactivity, hkind] at hσkind
      cases hσkind
      refine Table.eq_of_recordId he hentry ?_
      show e.entryId = r.entryId receipt.activityId
      rw [hid, hreads.id]
  · refine filter_eq_singleton hρ ?_ fun σ hσ hid => ?_
    · exact List.any_eq_true.2 ⟨r, mem_recorders r, by simp [hrecord]⟩
    · obtain ⟨r', -, hid⟩ := List.any_eq_true.1 hid
      have hid : σ.recordId = r'.recordId ρ.actual.activity.id := by simpa using hid
      exact h.unique hone hσ hρ (h.of_recordId hσ hid).1

/-! ### What a call does -/

/-- The activity has a record of its own contents. -/
def HasRecord (l : GenerationLedger) (raw : CashActivity) : Prop :=
  ∃ ρ ∈ l.receipts, ρ.actual.activity = raw

theorem HasRecord.grows {l l' : GenerationLedger} {raw : CashActivity} (h : HasRecord l raw)
    (hgrows : Grows l l') : HasRecord l' raw := by
  obtain ⟨ρ, hρ, hraw⟩ := h
  exact ⟨ρ, hgrows.receipts ρ hρ, hraw⟩

section Posting

variable {known : CashActivity → Prop} {m : MembershipResult} {now : Instant}
  {l l' : GenerationLedger}

/-- An activity without a record of its kind has no record and no entry at all. -/
theorem not_recorded (hone : OneKind known) {r : Recorder} {raw : CashActivity} (hraw : known raw)
    (hkind : Recorder.ofActivity raw = some r) (hs : Sound known l)
    (hnone : l.receipts.get? (r.recordId raw.id) = none) : ¬ Recorded l raw.id := by
  rintro ⟨ρ, hρ, hid⟩
  have hsame := hone _ _ (hs.known ρ hρ) hraw hid
  have hrecord := hs.recordId_eq hρ (hsame.trans hkind)
  exact Table.get?_eq_none_iff.1 hnone ρ hρ (hrecord.trans (by rw [hid]))

theorem no_entry (hs : Sound known l) {id : String} (hnone : ¬ Recorded l id)
    {e : CashLedgerEntry} (he : e ∈ l.cashLedger) (r : Recorder) : e.entryId ≠ r.entryId id := by
  intro hid
  obtain ⟨ρ, hρ, hrecord⟩ := hs.entry e he r id hid
  exact hnone ⟨ρ, hρ, (hs.of_recordId hρ hrecord).1⟩

/-- **Posting a receipt**: record and entry belong together, nothing else is touched. -/
theorem recordOnce_posts (hone : OneKind known) {r : Recorder} {raw : CashActivity}
    {receipt : CashReceipt} {checkpoint : Option OpeningCheckpoint} (hraw : known raw)
    (hs : Sound known l) (hreceipt : r.receipt raw = .ok (some receipt))
    (h : recordOnce r raw receipt checkpoint now l = .ok l') :
    Sound known l' ∧ Grows l l' ∧ HasRecord l' raw ∧ l'.dividendStatus = l.dividendStatus := by
  obtain ⟨hkind, hreads⟩ := Recorder.of_receipt hreceipt
  rcases recordOnce_ok hreceipt h with ⟨rfl, -, ρ, hρ, -, hkept⟩ |
    ⟨hnone, hadmits, cash, hcash, rfl⟩
  · exact ⟨hs, .refl l', ⟨ρ, hρ, hkept⟩, rfl⟩
  have hnew := not_recorded hone hraw hkind hs hnone
  obtain ⟨hentry, hcash⟩ := persist_ok hcash
  have hcash : l.cashLedger.Admits (r.cashEntry receipt) ∧
      cash = l.cashLedger.createOnce (r.cashEntry receipt) := by
    rcases hcash with rfl | ⟨-, hfree, rfl⟩
    · -- an entry of this activity would have a record
      exact absurd (by simp [Recorder.cashEntry, hreads.id]) (no_entry hs hnew hentry r)
    · exact ⟨hfree, rfl⟩
  obtain ⟨hfree, rfl⟩ := hcash
  set ρ := receiptRecord r raw receipt checkpoint now with hρ
  have hmem : ∀ e, e ∈ l.cashLedger.createOnce (r.cashEntry receipt) ↔
      e ∈ l.cashLedger ∨ e = r.cashEntry receipt := fun e => by
    rw [Table.mem_createOnce]
    simp [hfree]
  have hmemρ : ∀ σ, σ ∈ l.receipts.createOnce ρ ↔ σ ∈ l.receipts ∨ σ = ρ := fun σ => by
    rw [Table.mem_createOnce]
    simp [hadmits]
  refine ⟨⟨?_, ?_, ?_⟩, ⟨fun σ hσ => (hmemρ σ).2 (.inl hσ), fun e he => (hmem e).2 (.inl he), ?_⟩,
    ⟨ρ, (hmemρ ρ).2 (.inr rfl), rfl⟩, rfl⟩
  · intro σ hσ
    rcases (hmemρ σ).1 hσ with hσ | rfl
    · exact hs.known σ hσ
    · exact hraw
  · intro σ hσ
    rcases (hmemρ σ).1 hσ with hσ | rfl
    · obtain ⟨r', receipt', hreceipt', hid, hentry⟩ := hs.record σ hσ
      exact ⟨r', receipt', hreceipt', hid, (hmem _).2 (.inl hentry)⟩
    · exact ⟨r, receipt, hreceipt, rfl, (hmem _).2 (.inr rfl)⟩
  · intro e he r' id hid
    rcases (hmem e).1 he with he | rfl
    · obtain ⟨σ, hσ, hσid⟩ := hs.entry e he r' id hid
      exact ⟨σ, (hmemρ σ).2 (.inl hσ), hσid⟩
    · obtain ⟨rfl, rfl⟩ := Recorder.entryId_inj.1 hid
      exact ⟨ρ, (hmemρ ρ).2 (.inr rfl), by rw [hreads.id]; rfl⟩
  · intro id hid
    have hne : id ≠ raw.id := fun heq => hnew (heq ▸ hid)
    refine ⟨?_, ?_, rfl⟩
    · show (l.cashLedger.createOnce _).rows.filter _ = _
      rw [Table.rows_createOnce hfree, List.filter_append, List.filter_cons_of_neg,
        List.filter_nil, List.append_nil]
      · rfl
      · simp only [List.any_eq_true, decide_eq_true_eq, not_exists, not_and]
        rintro r' - heq
        exact hne ((Recorder.entryId_inj.1 heq).2.symm.trans hreads.id)
    · show (l.receipts.createOnce _).rows.filter _ = _
      rw [Table.rows_createOnce hadmits, List.filter_append, List.filter_cons_of_neg,
        List.filter_nil, List.append_nil]
      · rfl
      · simp only [List.any_eq_true, decide_eq_true_eq, not_exists, not_and]
        rintro r' - heq
        exact hne (Recorder.recordId_inj.1 heq).2.symm

/-- A status is added for a dividend that had no record. -/
theorem withStatus_grows {old : GenerationLedger} {raw : CashActivity} {receipt : DividendReceipt}
    (hone : OneKind known) (hraw : known raw) (hs : Sound known old)
    (hreceipt : dividendReceipt raw = .ok (some receipt)) (hgrows : Grows old l) :
    Grows old (withStatus old receipt now l) := by
  have hread : Recorder.dividend.receipt raw = .ok (some receipt.toCashReceipt) := by
    simp [Recorder.receipt, hreceipt, Except.map]
  obtain ⟨hkind, hreads⟩ := Recorder.of_receipt hread
  have hid : receipt.activityId = raw.id := hreads.id
  unfold withStatus
  rw [hid]
  split
  · exact hgrows
  · rename_i hnone
    have hnew := not_recorded hone hraw hkind hs (Option.not_isSome_iff_eq_none.1 hnone)
    refine ⟨hgrows.receipts, hgrows.cash, fun id hrecorded => ?_⟩
    obtain ⟨hentries, hreceipts, hstatuses⟩ := hgrows.same id hrecorded
    refine ⟨hentries, hreceipts, ?_⟩
    rw [← hstatuses]
    refine (Table.ExtendedBy.createOnce (P := fun s => s.activityId = raw.id) _ hid).filter_eq ?_
    intro s hs
    have hne : raw.id ≠ id := fun heq => hnew (heq ▸ hrecorded)
    simpa [hs] using hne

theorem Sound.withStatus {old : GenerationLedger} {receipt : DividendReceipt} (h : Sound known l) :
    Sound known (withStatus old receipt now l) := by
  unfold TradePulse.withStatus
  split
  · exact h
  · exact ⟨h.known, h.record, h.entry⟩

/-- The activities of a recorder have their records. -/
def Covers (r : Recorder) (m : MembershipResult) (activities : List CashActivity)
    (l : GenerationLedger) : Prop :=
  ∀ raw ∈ activities, Recorder.ofActivity raw = some r →
    (m.classified.statusOf raw.id).any (·.eligible) = true → HasRecord l raw

theorem admittedBy_ok {r : Recorder} {id : String} {b : Bool} (h : admittedBy r m id = .ok b) :
    b = (m.classified.statusOf id).any (·.eligible) := by
  unfold admittedBy at h
  split at h
  · cases h
  · cases h
  · rename_i status _ hstatus
    cases h
    rw [hstatus]
    rfl

/-- What one recorder does with a population. -/
structure Posts (known : CashActivity → Prop) (r : Recorder) (m : MembershipResult)
    (activities : List CashActivity) (l l' : GenerationLedger) : Prop where
  sound : Sound known l'
  grows : Grows l l'
  covers : Covers r m activities l'

theorem Posts.nil {r : Recorder} (hs : Sound known l) : Posts known r m [] l l :=
  ⟨hs, .refl l, fun _ h => absurd h List.not_mem_nil⟩

theorem Posts.cons {r : Recorder} {raw : CashActivity} {rest : List CashActivity}
    {l'' : GenerationLedger} (hgrows : Grows l l')
    (hraw : Recorder.ofActivity raw = some r →
      (m.classified.statusOf raw.id).any (·.eligible) = true → HasRecord l' raw)
    (h : Posts known r m rest l' l'') : Posts known r m (raw :: rest) l l'' := by
  refine ⟨h.sound, hgrows.trans h.grows, fun x hx hkind helig => ?_⟩
  rcases List.mem_cons.1 hx with rfl | hx
  · exact (hraw hkind helig).grows h.grows
  · exact h.covers x hx hkind helig

theorem Posts.skip {r : Recorder} {raw : CashActivity} {rest : List CashActivity}
    (hskip : Recorder.ofActivity raw = some r →
      (m.classified.statusOf raw.id).any (·.eligible) = false)
    (h : Posts known r m rest l l') : Posts known r m (raw :: rest) l l' := by
  refine h.cons (.refl l) fun hkind helig => ?_
  rw [hskip hkind] at helig
  cases helig

theorem persistFees_posts (hone : OneKind known) {activities : List CashActivity}
    (hknown : ∀ raw ∈ activities, known raw) {seen ids : List String} (hs : Sound known l)
    (h : persistFees m now seen activities l = .ok (l', ids)) :
    Posts known .fee m activities l l' := by
  induction activities generalizing seen l ids with
  | nil =>
      cases h
      exact .nil hs
  | cons raw rest ih =>
      have hrest : ∀ raw ∈ rest, known raw := fun x hx => hknown x (List.mem_cons_of_mem _ hx)
      unfold persistFees at h
      obtain ⟨⟨⟩, -, h⟩ := except_bind_eq_ok.1 h
      obtain ⟨⟨⟩, -, h⟩ := except_bind_eq_ok.1 h
      obtain ⟨found, hfound, h⟩ := except_bind_eq_ok.1 h
      cases found with
      | none =>
          refine (ih hrest hs h).skip fun hkind => ?_
          exact absurd hfound (Recorder.receipt_ne_none hkind)
      | some receipt =>
          obtain ⟨admitted, hadmitted, h⟩ := except_bind_eq_ok.1 h
          have hadmitted := admittedBy_ok hadmitted
          cases admitted with
          | false => exact (ih hrest hs h).skip fun _ => hadmitted.symm
          | true =>
              obtain ⟨posted, hposted, h⟩ := except_bind_eq_ok.1 h
              obtain ⟨⟨result, ids'⟩, hresult, h⟩ := except_bind_eq_ok.1 h
              cases h
              obtain ⟨hsound, hgrows, hhas, -⟩ :=
                recordOnce_posts hone (hknown raw List.mem_cons_self) hs hfound hposted
              exact (ih hrest hsound hresult).cons hgrows fun _ _ => hhas

theorem persistGenerationAdjustments_posts (hone : OneKind known) {activities : List CashActivity}
    (hknown : ∀ raw ∈ activities, known raw) (hs : Sound known l)
    (h : persistGenerationAdjustments m now activities l = .ok l') :
    Posts known .adjustment m activities l l' := by
  induction activities generalizing l with
  | nil =>
      cases h
      exact .nil hs
  | cons raw rest ih =>
      have hrest : ∀ raw ∈ rest, known raw := fun x hx => hknown x (List.mem_cons_of_mem _ hx)
      unfold persistGenerationAdjustments at h
      by_cases helig : (m.classified.statusOf raw.id).any (·.eligible) = false
      · rw [if_pos helig] at h
        exact (ih hrest hs h).skip fun _ => helig
      · rw [if_neg helig] at h
        obtain ⟨found, hfound, h⟩ := except_bind_eq_ok.1 h
        cases found with
        | none =>
            refine (ih hrest hs h).skip fun hkind => ?_
            exact absurd hfound (Recorder.receipt_ne_none hkind)
        | some receipt =>
            obtain ⟨posted, hposted, h⟩ := except_bind_eq_ok.1 h
            obtain ⟨hsound, hgrows, hhas, -⟩ :=
              recordOnce_posts hone (hknown raw List.mem_cons_self) hs hfound hposted
            exact (ih hrest hsound h).cons hgrows fun _ _ => hhas

theorem persistGenerationDividends_posts (hone : OneKind known) {activities : List CashActivity}
    (hknown : ∀ raw ∈ activities, known raw) (hs : Sound known l)
    (h : persistGenerationDividends m now activities l = .ok l') :
    Posts known .dividend m activities l l' := by
  induction activities generalizing l with
  | nil =>
      cases h
      exact .nil hs
  | cons raw rest ih =>
      have hrest : ∀ raw ∈ rest, known raw := fun x hx => hknown x (List.mem_cons_of_mem _ hx)
      unfold persistGenerationDividends at h
      obtain ⟨found, hfound, h⟩ := except_bind_eq_ok.1 h
      cases found with
      | none =>
          refine (ih hrest hs h).skip fun hkind => ?_
          exact absurd (by simp [Recorder.receipt, hfound, Except.map])
            (Recorder.receipt_ne_none hkind)
      | some receipt =>
          obtain ⟨admitted, hadmitted, h⟩ := except_bind_eq_ok.1 h
          have hadmitted := admittedBy_ok hadmitted
          cases admitted with
          | false => exact (ih hrest hs h).skip fun _ => hadmitted.symm
          | true =>
              obtain ⟨posted, hposted, h⟩ := except_bind_eq_ok.1 h
              have hraw := hknown raw List.mem_cons_self
              have hread : Recorder.dividend.receipt raw = .ok (some receipt.toCashReceipt) := by
                simp [Recorder.receipt, hfound, Except.map]
              obtain ⟨hsound, hgrows, hhas, -⟩ := recordOnce_posts hone hraw hs hread hposted
              refine (ih hrest hsound.withStatus h).cons
                (withStatus_grows hone hraw hs hfound hgrows) fun _ _ => ?_
              unfold withStatus
              split
              · exact hhas
              · exact hhas

/-- **What a call does**: every eligible activity has its record then, and nothing was added for
what had one. -/
theorem persistGenerationFees_posts (hone : OneKind known) {activities : List CashActivity}
    (hknown : ∀ raw ∈ activities, known raw) {ids : List String} (hs : Sound known l)
    (h : persistGenerationFees m now activities l = .ok (l', ids)) :
    Sound known l' ∧ Grows l l' ∧ ∀ raw ∈ eligibleCash m activities, HasRecord l' raw := by
  unfold persistGenerationFees at h
  obtain ⟨⟨l₁, ids₁⟩, hfees, h⟩ := except_bind_eq_ok.1 h
  obtain ⟨l₂, hadjustments, h⟩ := except_bind_eq_ok.1 h
  obtain ⟨l₃, hdividends, h⟩ := except_bind_eq_ok.1 h
  cases h
  have h₁ := persistFees_posts hone hknown hs hfees
  have h₂ := persistGenerationAdjustments_posts hone hknown h₁.sound hadjustments
  have h₃ := persistGenerationDividends_posts hone hknown h₂.sound hdividends
  refine ⟨h₃.sound, h₁.grows.trans (h₂.grows.trans h₃.grows), fun raw hraw => ?_⟩
  obtain ⟨hraw, hcash⟩ := List.mem_filter.1 hraw
  obtain ⟨hkind, helig⟩ := Bool.and_eq_true_iff.1 hcash
  obtain ⟨r, hr⟩ := Option.isSome_iff_exists.1 hkind
  cases r with
  | fee => exact ((h₁.covers raw hraw hr helig).grows h₂.grows).grows h₃.grows
  | adjustment => exact (h₂.covers raw hraw hr helig).grows h₃.grows
  | dividend => exact h₃.covers raw hraw hr helig

theorem insertCashFees_ok (hs : Sound known l) {fees : List CashActivity}
    (hfees : ∀ raw ∈ fees, HasRecord l raw ∧ Recorder.ofActivity raw = some .fee)
    {cash : Table CashLedgerEntry} (h : insertCashFees fees l.cashLedger = .ok cash) :
    cash = l.cashLedger := by
  induction fees with
  | nil =>
      cases h
      rfl
  | cons raw rest ih =>
      have hrest := ih fun x hx => hfees x (List.mem_cons_of_mem _ hx)
      obtain ⟨⟨ρ, hρ, rfl⟩, hkind⟩ := hfees raw List.mem_cons_self
      obtain ⟨r, receipt, hreceipt, -, hentry⟩ := hs.record ρ hρ
      have hr := (Recorder.of_receipt hreceipt).1
      rw [hkind] at hr
      cases hr
      have hget : l.cashLedger.get? (Recorder.fee.cashEntry receipt).entryId =
          some (Recorder.fee.cashEntry receipt) := Table.get?_eq_some_iff.2 ⟨hentry, rfl⟩
      unfold insertCashFees at h
      obtain ⟨found, hfound, h⟩ := except_bind_eq_ok.1 h
      rw [hreceipt] at hfound
      cases hfound
      simp only [hget] at h
      obtain ⟨⟨⟩, -, h⟩ := except_bind_eq_ok.1 h
      exact hrest h

/-- Posting a population, and what comes after it in the transaction. -/
theorem postAndGoOn_posts (hone : OneKind known) {activities : List CashActivity}
    (hknown : ∀ raw ∈ activities, known raw) {allocated : List String} {completes : Bool}
    (hs : Sound known l) (h : postAndGoOn m now activities allocated completes l = .ok l') :
    Sound known l' ∧ Grows l l' ∧ ∀ raw ∈ eligibleCash m activities, HasRecord l' raw := by
  unfold postAndGoOn at h
  obtain ⟨⟨posted, ids⟩, hposted, h⟩ := except_bind_eq_ok.1 h
  obtain ⟨cash, hcash, h⟩ := except_bind_eq_ok.1 h
  obtain ⟨⟨⟩, -, h⟩ := except_bind_eq_ok.1 h
  cases h
  have hposts := persistGenerationFees_posts hone hknown hs hposted
  have hsame := insertCashFees_ok hposts.1 (fun raw hraw => by
    obtain ⟨hraw, hfee⟩ := List.mem_filter.1 hraw
    exact ⟨hposts.2.2 raw hraw, (of_decide_eq_true hfee).1⟩) hcash
  rw [hsame]
  exact hposts

end Posting

/-- Whatever is done for an activity, it was read, and the rest is posted with its identity seen. -/
theorem persistFees_cons {m : MembershipResult} {now : Instant} {raw : CashActivity}
    {rest : List CashActivity} {seen ids : List String} {l l' : GenerationLedger}
    (h : persistFees m now seen (raw :: rest) l = .ok (l', ids)) :
    raw.id ≠ "" ∧ ∃ found, Recorder.fee.receipt raw = .ok found ∧
      ∃ l₁ ids₁, persistFees m now (raw.id :: seen) rest l₁ = .ok (l', ids₁) := by
  unfold persistFees at h
  obtain ⟨⟨⟩, hid, h⟩ := except_bind_eq_ok.1 h
  obtain ⟨⟨⟩, -, h⟩ := except_bind_eq_ok.1 h
  obtain ⟨found, hfound, h⟩ := except_bind_eq_ok.1 h
  refine ⟨raiseIf_eq_ok_iff.1 hid, found, hfound, ?_⟩
  cases found with
  | none => exact ⟨l, ids, h⟩
  | some receipt =>
      obtain ⟨admitted, -, h⟩ := except_bind_eq_ok.1 h
      cases admitted with
      | false => exact ⟨l, ids, h⟩
      | true =>
          obtain ⟨posted, -, h⟩ := except_bind_eq_ok.1 h
          obtain ⟨⟨result, ids'⟩, hresult, h⟩ := except_bind_eq_ok.1 h
          cases h
          exact ⟨posted, ids', hresult⟩

theorem keepReceipts_ok {activities : List CashActivity} {inbox inbox' : Table CashActivity}
    (h : keepReceipts activities inbox = .ok inbox') :
    (∀ x ∈ inbox, x ∈ inbox') ∧ ∀ raw ∈ activities, raw ∈ inbox' := by
  induction activities generalizing inbox with
  | nil =>
      cases h
      exact ⟨fun _ h => h, fun _ h => absurd h List.not_mem_nil⟩
  | cons raw rest ih =>
      unfold keepReceipts at h
      obtain ⟨⟨⟩, hsame, h⟩ := except_bind_eq_ok.1 h
      have hsame := raiseIf_eq_ok_iff.1 hsame
      obtain ⟨hkept, hrest⟩ := ih h
      have hraw : raw ∈ inbox.createOnce raw := by
        by_cases hadmits : inbox.Admits raw
        · exact Table.mem_createOnce.2 (.inr ⟨hadmits, rfl⟩)
        · rw [Table.createOnce_of_not_admits hadmits]
          -- the row with its identity is the receipt itself
          cases hget : inbox.get? raw.id with
          | none =>
              refine absurd (fun x hx => ?_) hadmits
              exact ⟨Table.get?_eq_none_iff.1 hget x hx, .inl rfl⟩
          | some existing =>
              have heq : existing = raw := by
                by_contra hne
                exact hsame (by simp [hget, hne])
              exact heq ▸ (Table.get?_eq_some_iff.1 hget).1
      refine ⟨fun x hx => hkept x (Table.mem_createOnce_of_mem hx), fun x hx => ?_⟩
      rcases List.mem_cons.1 hx with rfl | hx
      · exact hkept _ hraw
      · exact hrest x hx

/-! ### Runs -/

/-- **The invariant of a run.** -/
structure Consistent (j : Journal) : Prop where
  sound : Sound (· ∈ j.inbox) j.ledger
  classified : ∀ p ∈ j.classified, ∀ raw ∈ p.1, raw ∈ j.inbox
  posted : ∀ raw ∈ j.posted, HasRecord j.ledger raw

theorem oneKind_inbox (inbox : Table CashActivity) : OneKind (· ∈ inbox) := by
  intro x y hx hy hid
  rw [Table.eq_of_recordId (t := inbox) hx hy hid]

/-- What a transaction that went through did. -/
structure Performed (j : Journal) (c : Call) (j' : Journal) : Prop where
  consistent : Consistent j'
  grows : Grows j.ledger j'.ledger
  posted : j'.posted = j.posted ++ postedBy j c
  brought : ∀ raw ∈ broughtBy j c, raw ∈ j'.inbox

theorem Performed.of_posts {j j' : Journal} {c : Call} (hj : Consistent j)
    (hclassified : ∀ p ∈ j'.classified, ∀ raw ∈ p.1, raw ∈ j'.inbox)
    (hsound : Sound (· ∈ j'.inbox) j'.ledger) (hgrows : Grows j.ledger j'.ledger)
    (hposted : j'.posted = j.posted ++ postedBy j c)
    (hnew : ∀ raw ∈ postedBy j c, HasRecord j'.ledger raw)
    (hbrought : ∀ raw ∈ broughtBy j c, raw ∈ j'.inbox) : Performed j c j' := by
  refine ⟨⟨hsound, hclassified, fun raw hraw => ?_⟩, hgrows, hposted, hbrought⟩
  rw [hposted] at hraw
  rcases List.mem_append.1 hraw with hraw | hraw
  · exact (hj.posted raw hraw).grows hgrows
  · exact hnew raw hraw

theorem foreign_ne {entryId : String} (h : foreign entryId = true) (r : Recorder) (id : String) :
    entryId ≠ r.entryId id := by
  rintro rfl
  have hr := List.all_eq_true.1 h r (mem_recorders r)
  have happend : r.entryId id = r.entryId "" ++ id := by
    cases r <;> exact congrArg (· ++ id) String.append_empty.symm
  have hstart : (r.entryId "").toList.isPrefixOf (r.entryId id).toList = true := by
    rw [List.isPrefixOf_iff_prefix, happend, String.toList_append]
    exact List.prefix_append _ _
  rw [hstart] at hr
  cases hr

/-- **The step lemma.** -/
theorem perform_ok {j j' : Journal} {c : Call} (hj : Consistent j)
    (h : perform j c = .ok j') : Performed j c j' := by
  cases c with
  | classify activities m =>
      obtain ⟨inbox, hinbox, h⟩ := except_bind_eq_ok.1 h
      cases h
      obtain ⟨hkept, hall⟩ := keepReceipts_ok hinbox
      refine .of_posts hj ?_ (hj.sound.mono hkept) (.refl _) (List.append_nil _).symm ?_ hall
      · intro p hp raw hraw
        rcases List.mem_append.1 hp with hp | hp
        · exact hkept raw (hj.classified p hp raw hraw)
        · rw [List.mem_singleton.1 hp] at hraw
          exact hall raw hraw
      · exact fun _ hraw => absurd hraw List.not_mem_nil
  | post n now =>
      unfold perform at h
      cases hn : j.classified[n]? with
      | none =>
          simp only [hn] at h
          cases h
      | some p =>
          obtain ⟨activities, m⟩ := p
          simp only [hn] at h
          obtain ⟨⟨⟩, -, h⟩ := except_bind_eq_ok.1 h
          obtain ⟨⟨l, ids⟩, hposted, h⟩ := except_bind_eq_ok.1 h
          cases h
          -- what was classified is in the inbox
          have hknown := hj.classified _ (List.mem_of_getElem? hn)
          obtain ⟨hsound, hgrows, hnew⟩ :=
            persistGenerationFees_posts (oneKind_inbox j.inbox) hknown hj.sound hposted
          refine .of_posts hj hj.classified hsound hgrows ?_ ?_ ?_
          · simp [postedBy, hn]
          · simpa [postedBy, hn] using hnew
          · simpa [broughtBy, hn] using hknown
  | reconcile activities m now allocated completes =>
      obtain ⟨inbox, hinbox, h⟩ := except_bind_eq_ok.1 h
      obtain ⟨⟨⟩, -, h⟩ := except_bind_eq_ok.1 h
      obtain ⟨l, hposted, h⟩ := except_bind_eq_ok.1 h
      cases h
      obtain ⟨hkept, hall⟩ := keepReceipts_ok hinbox
      obtain ⟨hsound, hgrows, hnew⟩ :=
        postAndGoOn_posts (oneKind_inbox inbox) hall (hj.sound.mono hkept) hposted
      exact .of_posts hj (fun p hp raw hraw => hkept raw (hj.classified p hp raw hraw)) hsound
        hgrows rfl hnew hall
  | repair activities now allocated completes =>
      obtain ⟨l, hposted, h⟩ := except_bind_eq_ok.1 h
      obtain ⟨inbox, hinbox, h⟩ := except_bind_eq_ok.1 h
      cases h
      -- what was posted is in the inbox in the end
      obtain ⟨hkept, hall⟩ := keepReceipts_ok hinbox
      obtain ⟨hsound, hgrows, hnew⟩ :=
        postAndGoOn_posts (oneKind_inbox inbox) hall (hj.sound.mono hkept) hposted
      exact .of_posts hj (fun p hp raw hraw => hkept raw (hj.classified p hp raw hraw)) hsound
        hgrows rfl hnew hall
  | elsewhere entry =>
      obtain ⟨⟨⟩, hforeign, h⟩ := except_bind_eq_ok.1 h
      obtain ⟨cash, hcash, h⟩ := except_bind_eq_ok.1 h
      cases h
      have hforeign : foreign entry.entryId = true := by
        simpa using raiseIf_eq_ok_iff.1 hforeign
      obtain ⟨-, hrows⟩ := persist_ok hcash
      have hextended : Table.ExtendedBy (fun e => e = entry) j.ledger.cashLedger cash := by
        rcases hrows with rfl | ⟨-, -, rfl⟩
        · exact .refl _ _
        · exact .createOnce _ rfl
      obtain ⟨added, hrows, hadded⟩ := hextended
      have hmem : ∀ e, e ∈ cash → e ∈ j.ledger.cashLedger ∨ e = entry := by
        intro e he
        rw [Table.mem_def, hrows] at he
        rcases List.mem_append.1 he with he | he
        · exact .inl he
        · exact .inr (hadded e he)
      have hkeep : ∀ e ∈ j.ledger.cashLedger, e ∈ cash := by
        intro e he
        rw [Table.mem_def, hrows]
        exact List.mem_append_left _ he
      refine .of_posts hj hj.classified ⟨hj.sound.known, ?_, ?_⟩
        ⟨fun _ h => h, hkeep, ?_⟩ (List.append_nil _).symm (fun _ h => absurd h List.not_mem_nil)
        fun _ h => absurd h List.not_mem_nil
      · intro ρ hρ
        obtain ⟨r, receipt, hreceipt, hid, hentry⟩ := hj.sound.record ρ hρ
        exact ⟨r, receipt, hreceipt, hid, hkeep _ hentry⟩
      · intro e he r id hid
        rcases hmem e he with he | rfl
        · exact hj.sound.entry e he r id hid
        · exact absurd hid (foreign_ne hforeign r id)
      · intro id _
        refine ⟨?_, rfl, rfl⟩
        show cash.rows.filter _ = _
        refine Table.ExtendedBy.filter_eq ⟨added, hrows, hadded⟩ ?_
        rintro e rfl
        simp only [List.any_eq_false, decide_eq_true_eq]
        exact fun r _ => foreign_ne hforeign r id

/-- The tables before anything was posted. -/
def opened : Journal := {}

theorem consistent_opened : Consistent opened := by
  have hreceipts : ∀ ρ, ρ ∉ opened.ledger.receipts := fun ρ h => by cases h
  have hcash : ∀ e, e ∉ opened.ledger.cashLedger := fun e h => by cases h
  refine ⟨⟨fun ρ h => absurd h (hreceipts ρ), fun ρ h => absurd h (hreceipts ρ),
    fun e h => absurd h (hcash e)⟩, fun p h => ?_, fun raw h => ?_⟩
  all_goals cases h

theorem consistent_of_reaches {j : Journal} (h : system.Reaches (fun _ _ => True) opened j) :
    Consistent j := by
  refine h.invariant consistent_opened fun j c j' hj _ hstep => ?_
  cases hstep
  unfold after
  cases hperform : perform j c with
  | error e => exact hj
  | ok j' => exact (perform_ok hj hperform).consistent

/-- Exactly one entry, with the amount that the broker moved, and exactly one record. -/
def PostedOnce (l : GenerationLedger) (raw : CashActivity) : Prop :=
  ∃ e ρ, entriesOf l raw.id = [e] ∧ raw.netAmount = .exact e.amount ∧
    receiptsOf l raw.id = [ρ] ∧ ρ.actual.activity = raw

/-- What holds of the tables and of every call that is made on them. -/
structure ExactlyOnce (j : Journal) : Prop where
  /-- Each eligible activity that was posted has one entry and one record. -/
  posted : ∀ raw ∈ j.posted, PostedOnce j.ledger raw
  /-- Another call adds nothing for it. -/
  again : ∀ c j', perform j c = .ok j' → ∀ raw ∈ j.posted,
    entriesOf j'.ledger raw.id = entriesOf j.ledger raw.id ∧
      receiptsOf j'.ledger raw.id = receiptsOf j.ledger raw.id ∧
      statusesOf j'.ledger raw.id = statusesOf j.ledger raw.id
  /-- A call that brings it with other contents is refused. -/
  changed : ∀ c, ∀ raw ∈ j.posted, ∀ raw' ∈ broughtBy j c, raw'.id = raw.id → raw' ≠ raw →
    ∃ e, perform j c = .error e
  /-- A call that raises leaves the tables as they were. -/
  atomic : ∀ c e, perform j c = .error e → after j c = j

/-- **Every activity posted has one entry and one record**, and nothing but its own call adds to
them. -/
theorem reaches_posted {j : Journal} (h : system.Reaches (fun _ _ => True) opened j) :
    ExactlyOnce j := by
  have hj := consistent_of_reaches h
  refine ⟨fun raw hraw => ?_, fun c j' hperform raw hraw => ?_, ?_, fun c e hperform => ?_⟩
  · obtain ⟨ρ, hρ, rfl⟩ := hj.posted raw hraw
    obtain ⟨e, hentries, hamount, hreceipts⟩ := hj.sound.posted (oneKind_inbox j.inbox) hρ
    exact ⟨e, ρ, hentries, hamount, hreceipts, rfl⟩
  · obtain ⟨ρ, hρ, rfl⟩ := hj.posted raw hraw
    exact (perform_ok hj hperform).grows.same _ ⟨ρ, hρ, rfl⟩
  · intro c raw hraw raw' hraw' hid hne
    cases hperform : perform j c with
    | error e => exact ⟨e, rfl⟩
    | ok j' =>
        -- both would be in the inbox then, which holds one receipt for an identity
        have hp := perform_ok hj hperform
        obtain ⟨ρ, hρ, rfl⟩ := (hj.posted raw hraw).grows hp.grows
        have hraw := hp.consistent.sound.known ρ hρ
        exact absurd (Table.eq_of_recordId (t := j'.inbox) (hp.brought raw' hraw') hraw hid) hne
  · unfold after
    rw [hperform]

section Runs

private def coinReceipt : CashActivity :=
  { id := "buy", activityType := "FILL", symbol := "ETH/USD", side := "buy", qty := .exact 1,
    price := .exact 2000, transactionTime := some 5, orderId := some "order" }

/-- A dollar leaves the account, for some reason. -/
private def dollar (activityType : String) : CashActivity :=
  { id := "cash", activityType := activityType, netAmount := .exact (-1), status := "executed",
    currency := "USD", createdAt := some 6 }

/-- A share pays a dividend. -/
private def dividendPaid : CashActivity :=
  { id := "div", activityType := "DIV", symbol := "AAPL", netAmount := .exact 2,
    status := "executed", currency := "USD", createdAt := some 7 }

/-- A reconciliation posts a fee, the checkpoint posts it again with a dividend, a replay allocates
the fee, a repair brings what was posted, and another one brings the fee as a withdrawal. -/
private def postedSeveralTimes : List Call :=
  let fee := dollar "FEE"
  [.classify [fee] (unbound [fee]), .post 0 10,
    .reconcile [fee, dividendPaid] (unbound [fee, dividendPaid]) 11 [] true,
    .reconcile [fee, dividendPaid, coinReceipt] (unbound [fee, dividendPaid, coinReceipt]) 12
      ["cash"] true,
    .repair [fee, dividendPaid, coinReceipt] 13 ["cash"] true,
    .repair [dollar "CSW"] 14 [] true, .post 0 15]

/-- Posted five times, each has one entry and one record; the withdrawal is refused. -/
theorem reaches_posted_several :
    ∃ j, j.posted.map (·.id) = ["cash", "cash", "div", "cash", "div", "cash", "div", "cash"] ∧
      j.ledger.cashLedger.rows.map (fun e => (e.entryId, e.amount)) =
        [("broker:fee:cash", -1), ("broker:dividend:div", 2)] ∧ ExactlyOnce j := by
  have hrun : (system.run opened postedSeveralTimes).any (fun j => decide
      (j.posted.map (·.id) = ["cash", "cash", "div", "cash", "div", "cash", "div", "cash"] ∧
        j.ledger.cashLedger.rows.map (fun e => (e.entryId, e.amount)) =
          [("broker:fee:cash", -1), ("broker:dividend:div", 2)])) = true := by
    decide +kernel
  obtain ⟨j, hreach, hposted, hrows⟩ := Machine.exists_of_run hrun
  exact ⟨j, hposted, hrows, reaches_posted hreach⟩

end Runs

end GenerationCash

end TradePulse
