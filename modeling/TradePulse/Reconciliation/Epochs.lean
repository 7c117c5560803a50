/-
**Accounting epochs** (`reconciliation/epochs.py`).

The executions of an instrument are accounted for in epochs.  An epoch is reserved before an order
is sent; it collects the intents and the fills of one stretch of exposure, and a complete population
of the broker's activities finalises it.  Until then it holds back further discretionary entries.
An independent check of the persisted epochs guards the reset of a financial-integrity block.

Digests stand for what they digest: two of them are equal if their contents are.

Main definitions:

* `AccountingEpoch`, `Accounts` — an epoch, and the database with the tables around it;
* `saveEpoch` — the write of an epoch, with its versioned checkpoint;
* `reserveEpoch`, `recordGrossFill`, `finalizePopulation`, `blockAsset` — the transactions;
* `checkpointIssues` — the independent check.

Main results:

* `saved_of_saveEpoch` — what a write of an epoch leaves.
-/

import TradePulse.Persistence.Store
import TradePulse.Reconciliation.HistoricalFees

set_option autoImplicit false

namespace TradePulse

namespace Epochs

open Storage

/-! ### Epochs and their tables -/

/-- `fee_accounting_status`. -/
inductive AccountingState
  | submitted | filledGross | feePending | reconciledNet | integrityBlocked
  deriving DecidableEq

/-- What binds an epoch to the opening of its verification generation. -/
structure GenerationReference where
  verificationGenerationId : String
  generationOpeningCheckpointId : String
  generationOpenedAt : Instant
  openingActivityCursor : Option String
  openingActivityPopulationHash : String
  accountIdentityDigest : String
  deriving DecidableEq

/-- The opening checkpoint of a verification generation, with the quantities held then. -/
structure OpeningCheckpoint extends GenerationReference where
  openingQuantities : Dict ℚ := ∅

/-- The proof of a population of activities, as far as it is asked for. -/
structure PopulationProof where
  activityIds : List String
  brokerQuantity : ℚ
  generationMembership : Option GenerationReference := none
  deriving DecidableEq

/-- How a population was read, page by page. -/
structure Pagination where
  activityIds : List String
  complete : Bool
  deriving DecidableEq

/-- The identity of a checkpoint digests these. -/
structure CheckpointId where
  epoch : String
  version : ℕ
  population : Option PopulationProof
  deriving DecidableEq

/-- The quantities that a finalisation found to agree, or not. -/
structure QuantityConservation where
  startingBrokerQuantity : ℚ
  buys : ℚ
  sells : ℚ
  assetFees : ℚ
  endingBrokerQuantity : ℚ
  holdingQuantity : ℚ
  remainingLotQuantity : ℚ
  deriving DecidableEq

structure AccountingEpoch where
  canonicalAssetKey : String
  accountingEpochId : String
  startingBrokerQuantity : Option ℚ
  endingBrokerQuantity : Option ℚ := none
  grossFilledQuantity : ℚ := 0
  assetFeeQuantity : ℚ := 0
  netInventoryQuantity : Option ℚ := none
  cashFeeAmount : ℚ := 0
  feeAccountingStatus : AccountingState := .submitted
  brokerActivityCursor : Option String := none
  brokerActivityWindow : Option (Instant × Option String) := none
  feeEvidenceIds : List String := []
  generationFeeEvidenceIds : List String := []
  feeEvidenceState : String := ""
  /-- `population_proof_id` and `population_hash`. -/
  populationProof : Option PopulationProof := none
  openedAt : Instant
  reconciledAt : Option Instant := none
  tradeIntentIds : List String
  fillIds : List String := []
  includedActivityIds : List String := []
  excludedActivityIds : List String := []
  paginationProof : Option Pagination := none
  evidenceFileSha256 : Option String := none
  conservation : Option QuantityConservation := none
  checkpointVersion : ℕ := 0
  checkpointId : Option CheckpointId := none
  supersededCheckpointIds : List CheckpointId := []
  generation : Option GenerationReference := none
  /-- The adoption that an epoch of adopted inventory belongs to (`origin`, `adoption_id`). -/
  adoptionId : Option String := none
  historicalPopulation : Bool := false
  reason : Option String := none
  deriving DecidableEq

instance : Record AccountingEpoch where
  recordId e := e.accountingEpochId
  uniqueValue _ := none

/-- The database, with what accounts for its executions. -/
structure Accounts where
  store : Store := {}
  epochs : Table AccountingEpoch := default
  /-- The receipts of checkpoints among the reconciliation records. -/
  checkpoints : List (CheckpointId × AccountingEpoch) := []
  /-- The population proofs among the reconciliation records. -/
  populations : List PopulationProof := []
  /-- The broker's activities as they were first received (`broker_activity_inbox`). -/
  inbox : List (String × HistoricalFees.FeeReceipt) := []
  /-- The opening checkpoint of the generation, once it is bound. -/
  opening : Option OpeningCheckpoint := none

/-- `AccountingEpochPending`, which is a `ValueError`. -/
def accountingEpochPending (reason : String) : Raised := .valueError reason

/-- `epochs_for`: the epochs of an instrument, in the order in which they were inserted. -/
def epochsFor (w : Accounts) (key : String) : List AccountingEpoch :=
  w.epochs.rows.filter fun e => e.canonicalAssetKey = key

/-- The fills of an instrument. -/
def assetFills (w : Accounts) (key : String) : List Fill :=
  w.store.fills.rows.filter fun f => assetIdentityKey f.asset = key

/-! ### The write of an epoch -/

/-- `_verify_opening_reference`, where a generation is open. -/
def verifyOpening (opening : Option OpeningCheckpoint) (e : AccountingEpoch) : Except Raised Unit :=
  match opening with
  | none => .ok ()
  | some checkpoint =>
      if e.generation = some checkpoint.toGenerationReference then .ok ()
      else .error (.valueError "EPOCH_GENERATION_OPENING_REFERENCE_INVALID")

/-- The receipt of an epoch's checkpoint is there and holds the epoch as it is. -/
def receiptMatches (w : Accounts) (e : AccountingEpoch) : Bool :=
  match e.checkpointId with
  | none => false
  | some id => decide (w.checkpoints.lookup id = some e)

/-- The epoch differs from the one that its last checkpoint binds. -/
def changedCheckpoint (w : Accounts) (previous e : AccountingEpoch) : Bool :=
  decide (e.feeAccountingStatus ≠ .reconciledNet) || decide (e ≠ previous)
    || !receiptMatches w previous

/-- A checkpoint that no longer binds the epoch is superseded. -/
def supersede (w : Accounts) (previous e : AccountingEpoch) : AccountingEpoch :=
  if previous.feeAccountingStatus = .reconciledNet ∧ changedCheckpoint w previous e = true ∧
      previous.populationProof ≠ none then
    match previous.checkpointId with
    | none => e
    | some id =>
        if id ∈ e.supersededCheckpointIds then e
        else { e with supersededCheckpointIds := e.supersededCheckpointIds ++ [id] }
  else e

/-- The next checkpoint of an epoch, after the given version. -/
def nextCheckpoint (version : ℕ) (e : AccountingEpoch) : AccountingEpoch :=
  { e with
    checkpointVersion := version + 1
    checkpointId := some ⟨e.accountingEpochId, version + 1, e.populationProof⟩ }

/-- The epoch as `save_epoch` writes it. -/
def savedEpoch (w : Accounts) (e : AccountingEpoch) : AccountingEpoch :=
  match w.epochs.get? e.accountingEpochId with
  | none => if e.feeAccountingStatus = .reconciledNet then nextCheckpoint 0 e else e
  | some previous =>
      -- what is superseded is noted before the versions are compared
      let marked := supersede w previous e
      if e.feeAccountingStatus = .reconciledNet ∧
          (previous.feeAccountingStatus ≠ .reconciledNet ∨ changedCheckpoint w previous e = true)
      then nextCheckpoint previous.checkpointVersion marked
      else marked

/-- Insert a receipt unless there is one with its identity. -/
def addCheckpoint (checkpoints : List (CheckpointId × AccountingEpoch)) (e : AccountingEpoch) :
    List (CheckpointId × AccountingEpoch) :=
  match e.checkpointId with
  | none => checkpoints
  | some id => if (checkpoints.lookup id).isSome then checkpoints else checkpoints ++ [(id, e)]

/-- `save_epoch`. -/
def saveEpoch (w : Accounts) (e : AccountingEpoch) : Except Raised Accounts := do
  verifyOpening w.opening e
  let saved := savedEpoch w e
  if w.epochs.get? e.accountingEpochId = some saved then .ok w
  else
    .ok { w with
      epochs := w.epochs.upsert saved
      checkpoints := if saved.feeAccountingStatus = .reconciledNet
        then addCheckpoint w.checkpoints saved else w.checkpoints }

section Save

variable {w w' : Accounts} {e previous : AccountingEpoch}

/-- A write of an epoch changes nothing of it but its versions. -/
theorem savedEpoch_field {α : Type} (f : AccountingEpoch → α)
    (hf : ∀ e v c xs, f { e with
      checkpointVersion := v
      checkpointId := c
      supersededCheckpointIds := xs } = f e) :
    f (savedEpoch w e) = f e := by
  have hnext : ∀ v x, f (nextCheckpoint v x) = f x := fun v x => hf x _ _ _
  have hmark : ∀ q, f (supersede w q e) = f e := by
    intro q
    unfold supersede
    split
    · split
      · rfl
      · split
        · rfl
        · exact hf e _ _ _
    · rfl
  unfold savedEpoch
  split
  · split
    · exact hnext 0 e
    · rfl
  · dsimp only
    split
    · rw [hnext, hmark]
    · exact hmark _

@[simp] theorem savedEpoch_accountingEpochId :
    (savedEpoch w e).accountingEpochId = e.accountingEpochId :=
  savedEpoch_field (·.accountingEpochId) fun _ _ _ _ => rfl

@[simp] theorem savedEpoch_canonicalAssetKey :
    (savedEpoch w e).canonicalAssetKey = e.canonicalAssetKey :=
  savedEpoch_field (·.canonicalAssetKey) fun _ _ _ _ => rfl

@[simp] theorem savedEpoch_feeAccountingStatus :
    (savedEpoch w e).feeAccountingStatus = e.feeAccountingStatus :=
  savedEpoch_field (·.feeAccountingStatus) fun _ _ _ _ => rfl

@[simp] theorem savedEpoch_tradeIntentIds : (savedEpoch w e).tradeIntentIds = e.tradeIntentIds :=
  savedEpoch_field (·.tradeIntentIds) fun _ _ _ _ => rfl

@[simp] theorem savedEpoch_generation : (savedEpoch w e).generation = e.generation :=
  savedEpoch_field (·.generation) fun _ _ _ _ => rfl

/-- What a write of an epoch leaves. -/
structure Saved (w : Accounts) (e : AccountingEpoch) (w' : Accounts) : Prop where
  opening : verifyOpening w.opening e = .ok ()
  frame : w' = { w with
    epochs := w'.epochs
    checkpoints := w'.checkpoints }
  mem : ∀ x, x ∈ w'.epochs ↔
    x = savedEpoch w e ∨ (x ∈ w.epochs ∧ x.accountingEpochId ≠ e.accountingEpochId)
  receipts : (w.epochs.get? e.accountingEpochId = some (savedEpoch w e) ∧
      w'.checkpoints = w.checkpoints) ∨
    w'.checkpoints = if e.feeAccountingStatus = .reconciledNet
      then addCheckpoint w.checkpoints (savedEpoch w e) else w.checkpoints

theorem saved_of_saveEpoch (h : saveEpoch w e = .ok w') : Saved w e w' := by
  unfold saveEpoch at h
  obtain ⟨⟨⟩, hopening, h⟩ := except_bind_eq_ok.1 h
  dsimp only at h
  split at h
  · rename_i hsame
    cases h
    refine { opening := hopening, frame := rfl, mem := fun x => ?_, receipts := .inl ⟨hsame, rfl⟩ }
    obtain ⟨hmem, -⟩ := Table.get?_eq_some_iff.1 hsame
    constructor
    · intro hx
      by_cases hid : x.accountingEpochId = e.accountingEpochId
      · exact .inl (Table.eq_of_recordId hx hmem (hid.trans savedEpoch_accountingEpochId.symm))
      · exact .inr ⟨hx, hid⟩
    · rintro (rfl | ⟨hx, -⟩)
      · exact hmem
      · exact hx
  · cases h
    refine { opening := hopening, frame := rfl, mem := fun x => ?_, receipts := .inr ?_ }
    · have hmem := Table.mem_upsert (t := w.epochs) (r := savedEpoch w e) (a := x) fun _ => rfl
      have hid : Record.recordId (savedEpoch w e) = e.accountingEpochId :=
        savedEpoch_accountingEpochId
      rw [hid] at hmem
      exact hmem
    · simp only [savedEpoch_feeAccountingStatus]

theorem Saved.self (h : Saved w e w') :
    w'.epochs.get? e.accountingEpochId = some (savedEpoch w e) :=
  Table.get?_eq_some_iff.2 ⟨(h.mem _).2 (.inl rfl), savedEpoch_accountingEpochId⟩

theorem Saved.store (h : Saved w e w') : w'.store = w.store := by
  rw [h.frame]

theorem Saved.openingCheckpoint (h : Saved w e w') : w'.opening = w.opening := by
  rw [h.frame]

end Save

/-- `new_epoch`. -/
def newEpoch (w : Accounts) (key identifier : String) (now : Instant)
    (startingQuantity : Option ℚ) (intentIds : List String) : AccountingEpoch where
  canonicalAssetKey := key
  accountingEpochId := identifier
  startingBrokerQuantity := startingQuantity
  openedAt := now
  tradeIntentIds := intentIds
  generation := w.opening.map (·.toGenerationReference)

/-! ### Reservation -/

/-- The epochs of an instrument that are not finalised. -/
def pendingEpochs (w : Accounts) (key : String) : List AccountingEpoch :=
  (epochsFor w key).filter fun e => e.feeAccountingStatus ≠ .reconciledNet

/-- The pending epochs of adopted inventory. -/
def pendingAdopted (w : Accounts) (key : String) : List AccountingEpoch :=
  (pendingEpochs w key).filter fun e => e.adoptionId.isSome

/-- The intents that have an epoch. -/
def assignedIntents (epochs : List AccountingEpoch) : List String :=
  epochs.flatMap fun e => e.tradeIntentIds

/-- The intent joins an epoch. -/
def AccountingEpoch.join (e : AccountingEpoch) (tradeIntentId : String) : AccountingEpoch :=
  { e with tradeIntentIds := e.tradeIntentIds ++ [tradeIntentId] }

/-- `reserve_epoch`: an order joins the pending epoch if it is protective, and otherwise opens one
where none is pending. -/
def reserveEpoch (w : Accounts) (intent : TradeIntent) (brokerQuantity : ℚ) (protective : Bool)
    (now : Instant) : Except Raised (Option String × Accounts) :=
  if intent.asset.assetClass ≠ .crypto then .ok (none, w)
  else
    let key := assetIdentityKey intent.asset
    let id := intent.tradeIntentId
    match (epochsFor w key).find? fun e => id ∈ e.tradeIntentIds with
    | some own => .ok (some own.accountingEpochId, w)
    | none =>
        match (pendingAdopted w key).getLast? with
        | some adopted =>
            if protective then do
              let w ← saveEpoch w (adopted.join id)
              .ok (some adopted.accountingEpochId, w)
            else .error (accountingEpochPending ("CRYPTO_ADOPTED_INVENTORY_OPEN:" ++ key))
        | none =>
            let unknown := (assetFills w key).any fun f =>
              !(assignedIntents (epochsFor w key)).contains f.tradeIntentId
            if unknown && !protective then
              .error (accountingEpochPending ("CRYPTO_ACCOUNTING_HISTORY_UNVERIFIED:" ++ key))
            else
              match (pendingEpochs w key).getLast? with
              | some pending =>
                  if protective then do
                    let w ← saveEpoch w (pending.join id)
                    .ok (some pending.accountingEpochId, w)
                  else .error (accountingEpochPending ("CRYPTO_ACCOUNTING_EPOCH_PENDING:" ++ key))
              | none => do
                  let opened := (w.opening.bind fun c => c.openingQuantities.lookup key).getD 0
                  let epoch := newEpoch w key ("crypto_epoch:" ++ id) now
                    (some (brokerQuantity - opened)) [id]
                  let w ← saveEpoch w epoch
                  .ok (some epoch.accountingEpochId, w)

/-! ### Fills -/

/-- The epoch of a fill: the one of its intent, or a new one of unknown starting quantity. -/
def epochOfFill (w : Accounts) (fill : Fill) : AccountingEpoch :=
  let key := assetIdentityKey fill.asset
  match (epochsFor w key).find? fun e => fill.tradeIntentId ∈ e.tradeIntentIds with
  | some e => e
  | none => newEpoch w key ("crypto_epoch:" ++ fill.tradeIntentId) fill.filledAt none
      [fill.tradeIntentId]

/-- An epoch with one more fill, gross of fees. -/
def AccountingEpoch.addFill (e : AccountingEpoch) (fill : Fill) : AccountingEpoch :=
  { e with
    fillIds := e.fillIds ++ [fill.fillId]
    grossFilledQuantity := e.grossFilledQuantity + fill.quantity
    feeAccountingStatus := .filledGross
    reconciledAt := none }

/-- An epoch that waits for its fees. -/
def AccountingEpoch.awaitFees (e : AccountingEpoch) : AccountingEpoch :=
  { e with feeAccountingStatus := .feePending }

/-- An epoch that is blocked, or waits, for a reason. -/
def AccountingEpoch.block (e : AccountingEpoch) (reason : String) (pending : Bool) :
    AccountingEpoch :=
  { e with
    feeAccountingStatus := if pending then .feePending else .integrityBlocked
    reason := some reason
    reconciledAt := none }

/-- The accounts with one more execution on record. -/
def Accounts.addFill (w : Accounts) (fill : Fill) : Accounts :=
  { w with store := { w.store with fills := w.store.fills.createOnce fill } }

/-- `record_gross_fill`: the execution and its provisional epoch, at once. -/
def recordGrossFill (w : Accounts) (fill : Fill) : Except Raised Accounts := do
  let epoch := epochOfFill w fill
  raiseIf ((w.store.fills.get? fill.fillId).any fun old => old.toFillFields ≠ fill.toFillFields)
    (.valueError "CRYPTO_GROSS_FILL_RECEIPT_CHANGED")
  let w := w.addFill fill
  if fill.fillId ∈ epoch.fillIds then .ok w
  else do
    let gross := epoch.addFill fill
    let saved := savedEpoch w gross
    let w ← saveEpoch w gross
    saveEpoch w saved.awaitFees

/-- `block_asset`: the last epoch of an instrument is blocked, or waits, for a reason. -/
def blockAsset (w : Accounts) (key historyId : String) (reason : String) (now : Instant)
    (pending : Bool) : Except Raised Accounts :=
  let epoch := ((epochsFor w key).getLast?).getD (newEpoch w key historyId now none [])
  saveEpoch w (epoch.block reason pending)

/-! ### Finalisation -/

/-- What a cash fee says it belongs to. -/
structure FeeRelationship where
  fillId : Option String := none
  orderId : Option String := none
  assetId : Option String := none
  symbol : Option String := none
  deriving DecidableEq

/-- A cash fee among the sales of some orders, with its allocation to closures of lots. -/
structure CashPlan where
  activityId : String
  tradeIntentIds : List String
  allocations : List (String × ℚ)

/-- A population of activities that replays an instrument, with what its receipts say. -/
structure Population where
  proof : PopulationProof
  fills : List Fill
  fees : List HistoricalFees.AssetFee
  cashPlans : List CashPlan
  lots : List PositionLot
  quantity : ℚ
  activities : List HistoricalFees.FeeReceipt
  pagination : Option Pagination := none
  evidenceHash : Option String := none
  /-- The cash fees of the generation, each with its relationship (`cash_fee_receipt`). -/
  cashReceipts : List (String × FeeRelationship) := []
  /-- The cash fees that the generation's ledger holds (`generation_fee_recorded`). -/
  recordedFees : List String := []
  /-- The executions whose fee the broker reports as it is on record (`reported_fill_fee`). -/
  reportedFills : List String := []

/-- The receipts of some activities are in the inbox, and none of them changed. -/
def receive (inbox : List (String × HistoricalFees.FeeReceipt)) :
    List HistoricalFees.FeeReceipt →
    Except Raised (List (String × HistoricalFees.FeeReceipt))
  | [] => .ok inbox
  | raw :: activities =>
      match inbox.lookup raw.id with
      | none => receive (inbox ++ [(raw.id, raw)]) activities
      | some old =>
          if old = raw then receive inbox activities
          else .error (.valueError ("BROKER_ACTIVITY_RECEIPT_CHANGED:" ++ raw.id))

/-- The texts of a set, in order and each once. -/
def sortedSet (xs : List String) : List String := xs.dedup.insertionSort (· ≤ ·)

/-- The intents of fills that no epoch lists. -/
def historicalIntents (w : Accounts) (key : String) (p : Population) : List String :=
  sortedSet ((p.fills.map fun f => f.tradeIntentId).filter fun id =>
    !(assignedIntents (epochsFor w key)).contains id)

/-- The epoch of an instrument's history takes in more intents. -/
def AccountingEpoch.joinHistory (historyId : String) (intentIds : List String)
    (e : AccountingEpoch) : AccountingEpoch :=
  if e.accountingEpochId = historyId then
    { e with
      tradeIntentIds := sortedSet (e.tradeIntentIds ++ intentIds)
      reconciledAt := none }
  else e

/-- The first of the instants at which some fills happened. -/
def firstFilledAt : List Fill → Instant
  | [] => 0
  | f :: fs => fs.foldl (fun t f => min t f.filledAt) f.filledAt

/-- The epochs that a finalisation goes through: fills of intents without an epoch are the
instrument's history. -/
def finalizedEpochs (w : Accounts) (key historyId : String) (p : Population) :
    List AccountingEpoch :=
  let epochs := epochsFor w key
  let historical := historicalIntents w key p
  if historical = [] then epochs
  else if epochs.any fun e => e.accountingEpochId == historyId then
    epochs.map (AccountingEpoch.joinHistory historyId historical)
  else
    epochs ++ [{ newEpoch w key historyId (firstFilledAt p.fills) (some 0) historical with
      historicalPopulation := true }]

/-- The fills of an epoch's intents. -/
def selectedFills (p : Population) (e : AccountingEpoch) : List Fill :=
  p.fills.filter fun f => f.tradeIntentId ∈ e.tradeIntentIds

/-- What of the quantities one side of some fills moved. -/
def sideQuantity (side : Side) (fills : List Fill) : ℚ :=
  ((fills.filter fun f => f.side = side).map fun f => f.quantity).sum

/-- The fees that debit an epoch's own lots. -/
def epochFees (p : Population) (e : AccountingEpoch) : List HistoricalFees.AssetFee :=
  let selectedIds := (selectedFills p e).map fun f => f.fillId
  let ownLots := p.lots.filter fun l =>
    selectedIds.contains l.originatingFillId
      || (e.adoptionId.isSome && l.adoptionId == e.adoptionId)
  p.fees.filter fun fee => ownLots.any fun l => (l.assetFeeQuantities.lookup fee.activityId).isSome

/-- The cash fees that an epoch's orders took part in. -/
def selectedCash (p : Population) (e : AccountingEpoch) : List CashPlan :=
  p.cashPlans.filter fun plan => plan.tradeIntentIds.any fun id => e.tradeIntentIds.contains id

/-- The quantity that an epoch started from; recovered from what came before if it is not known. -/
def startingQuantity (p : Population) (e : AccountingEpoch) : ℚ :=
  match e.startingBrokerQuantity with
  | some quantity => quantity
  | none =>
      let selectedIds := (selectedFills p e).map fun f => f.fillId
      let before := p.fills.filter fun f => f.filledAt < e.openedAt
      let others := p.lots.filter fun l =>
        !selectedIds.contains l.originatingFillId && l.origin != .adopted
      sideQuantity .buy before - sideQuantity .sell before
        - (p.fees.map fun fee =>
            (others.map fun l => (l.assetFeeQuantities.lookup fee.activityId).getD 0).sum).sum

/-- The statuses of an order that is over. -/
def closedStatuses : List TradeIntentStatus := [.filled, .canceled, .expired, .rejected]

/-- The order of an intent is over. -/
def isClosed (s : Store) (id : String) : Bool :=
  (s.tradeIntents.get? id).any fun t => closedStatuses.contains t.status

/-- A cash fee belongs to an epoch's orders, fills or instrument. -/
def isLinked (selected : List Fill) (relationship : FeeRelationship) : Bool :=
  let symbol := ((selected.head?.map fun f => f.asset.symbol).getD "").replace "/" ""
  relationship.orderId.any (fun id => (selected.map fun f => f.orderId).contains id)
    || relationship.fillId.any (fun id => (selected.filterMap fun f => f.brokerFillId).contains id)
    || (relationship.orderId.isNone && relationship.fillId.isNone
        && (relationship.symbol.getD "").replace "/" "" == symbol)

/-- The cash fees that evidence an epoch: those of the account, and those linked to it. -/
def cashEvidence (p : Population) (e : AccountingEpoch) : List String :=
  let account := p.cashReceipts.filter fun r => r.2 = {}
  let linked := p.cashReceipts.filter fun r => isLinked (selectedFills p e) r.2
  (account ++ linked).map fun r => r.1

/-- The broker reports the fee of every fill of one side as it is on record. -/
def feesReported (p : Population) (side : Side) (fills : List Fill) : Bool :=
  (fills.filter fun f => f.side = side).all fun f =>
    f.brokerFillId.any fun id => p.reportedFills.contains id

/-- The fee obligations of an epoch's fills are evidenced. -/
def feeEvidenced (p : Population) (e : AccountingEpoch) : Bool :=
  let selected := selectedFills p e
  let cash := !(cashEvidence p e).isEmpty
  let noBuys := sideQuantity .buy selected == 0
  let noSells := sideQuantity .sell selected == 0
  if (p.fills.head?.map fun f => f.asset.assetClass) = some .crypto then
    (noBuys || !(epochFees p e).isEmpty || cash || feesReported p .buy selected)
      && (noSells || !(selectedCash p e).isEmpty || cash || feesReported p .sell selected)
  else noSells || cash || feesReported p .sell selected

/-- The population was read to its end, and every cash fee in it is on record. -/
def populationRead (p : Population) : Bool :=
  (p.cashReceipts.all fun r => p.recordedFees.contains r.1) && p.pagination.any fun g => g.complete

/-- `fee_complete`. -/
def feeComplete (s : Store) (p : Population) (e : AccountingEpoch) : Bool :=
  feeEvidenced p e && e.tradeIntentIds.all (isClosed s) && populationRead p

/-- What an epoch's fills and fees leave of its starting quantity. -/
def netQuantity (p : Population) (e : AccountingEpoch) : ℚ :=
  startingQuantity p e + sideQuantity .buy (selectedFills p e)
    - sideQuantity .sell (selectedFills p e) - ((epochFees p e).map fun fee => fee.quantity).sum

/-- The quantity an epoch ended with: what it left, or what is held if no epoch came after it. -/
def endingQuantity (epochs : List AccountingEpoch) (p : Population) (e : AccountingEpoch) : ℚ :=
  if epochs.any fun e' => e.openedAt < e'.openedAt then netQuantity p e else p.quantity

/-- The state that a finalisation finds an epoch in. -/
def finalState (s : Store) (epochs : List AccountingEpoch) (p : Population)
    (e : AccountingEpoch) : AccountingState :=
  if netQuantity p e = endingQuantity epochs p e ∧ feeComplete s p e = true then .reconciledNet
  else .feePending

/-- The cash fees that are allocated to closures of an epoch's fills. -/
def cashFeeAmount (p : Population) (e : AccountingEpoch) : ℚ :=
  ((selectedCash p e).flatMap fun plan => plan.allocations.filterMap fun a =>
    if p.lots.any fun l => (selectedFills p e).any fun f => a.1 == l.lotId ++ ":" ++ f.fillId
    then some a.2 else none).sum

/-- An epoch with the evidence of a population, as the finalisation leaves it. -/
def finalizedEpoch (s : Store) (epochs : List AccountingEpoch) (p : Population) (now : Instant)
    (e : AccountingEpoch) : AccountingEpoch :=
  let selected := selectedFills p e
  let buys := sideQuantity .buy selected
  let sells := sideQuantity .sell selected
  let native := ((epochFees p e).map fun fee => fee.quantity).sum
  let start := startingQuantity p e
  let ending := endingQuantity epochs p e
  let state := finalState s epochs p e
  let cursor := p.activities.getLast?.map fun raw => raw.id
  let cash := cashEvidence p e
  let nonCrypto := (p.fills.head?.map fun f => f.asset.assetClass) ≠ some .crypto
  let included := ((selected.filterMap fun f => f.brokerFillId)
    ++ ((epochFees p e).map fun fee => fee.activityId)
    ++ (selectedCash p e).map fun plan => plan.activityId).insertionSort (· ≤ ·)
  { e with
    startingBrokerQuantity := some start
    grossFilledQuantity := buys + sells
    assetFeeQuantity := native
    netInventoryQuantity := if state = .reconciledNet then some ending else none
    endingBrokerQuantity := some ending
    cashFeeAmount := cashFeeAmount p e
    feeAccountingStatus := state
    brokerActivityCursor := cursor
    brokerActivityWindow := some (e.openedAt, cursor)
    feeEvidenceIds := ((epochFees p e).map (fun fee => fee.activityId)
      ++ (selectedCash p e).map fun plan => plan.activityId).insertionSort (· ≤ ·)
    generationFeeEvidenceIds := sortedSet cash
    feeEvidenceState :=
      if !cash.isEmpty || !(epochFees p e).isEmpty || !(selectedCash p e).isEmpty
          || (feesReported p .buy selected && feesReported p .sell selected)
      then "receipt_backed" else "complete_population_no_fee_observed"
    populationProof := some p.proof
    fillIds := (selected.map fun f => f.fillId).insertionSort (· ≤ ·)
    includedActivityIds := included
    excludedActivityIds := sortedSet ((p.activities.map fun raw => raw.id).filter fun id =>
      !included.contains id)
    paginationProof := p.pagination
    evidenceFileSha256 := p.evidenceHash
    conservation := some
      { startingBrokerQuantity := start
        buys := buys
        sells := sells
        assetFees := native
        endingBrokerQuantity := ending
        holdingQuantity := p.quantity
        remainingLotQuantity := (p.lots.map fun l => l.signedQuantity).sum }
    reconciledAt := if state = .reconciledNet then some (e.reconciledAt.getD now) else none
    reason := if nonCrypto ∧ feeComplete s p e = false
      then some "missing_fee_receipt_or_nonterminal_order" else none }

/-- One epoch of a finalisation: an epoch without fills is passed over. -/
def finalizeEpoch (epochs : List AccountingEpoch) (p : Population) (now : Instant) (w : Accounts)
    (e : AccountingEpoch) : Except Raised Accounts :=
  if selectedFills p e = [] then .ok w
  else saveEpoch w (finalizedEpoch w.store epochs p now e)

/-- `finalize_population`, in the transaction that records the proof of the population. -/
def finalizePopulation (w : Accounts) (key historyId : String) (p : Population) (now : Instant) :
    Except Raised Accounts := do
  let epochs := finalizedEpochs w key historyId p
  let inbox ← receive w.inbox p.activities
  let w := { w with
    inbox := inbox
    populations := if p.proof ∈ w.populations then w.populations else w.populations ++ [p.proof] }
  epochs.foldlM (finalizeEpoch epochs p now) w

/-! ### The independent check -/

section Check

-- the verification of a persisted population against the persisted tables: its pages, its
-- membership of the generation and its replay (`validate_pagination`, `verify_membership_record`,
-- `validate_fee_population`)
variable (verified : PopulationProof → Pagination → Store → Bool)

/-- An epoch belongs to the generation that its population belongs to. -/
def verifyMembership (e : AccountingEpoch) : Option GenerationReference → Except Raised Unit
  | some membership => raiseIf (e.generation ≠ some membership)
      (.valueError "EPOCH_GENERATION_OPENING_REFERENCE_INVALID")
  | none => raiseIf (e.generation ≠ none)
      (.valueError "CHECKPOINT_GENERATION_MEMBERSHIP_MISSING")

/-- The part of `verify_checkpoint` that is about the population. -/
def verifyPopulation (w : Accounts) (e : AccountingEpoch) : Except Raised Unit :=
  match e.populationProof, e.paginationProof, e.conservation with
  | some proof, some pages, some c => do
      raiseIf (proof ∉ w.populations) ⟨.other, "population_proof_id"⟩
      verifyMembership e proof.generationMembership
      raiseIf (verified proof pages w.store = false) (.valueError "CHECKPOINT_POPULATION_CHANGED")
      raiseIf (c.startingBrokerQuantity + c.buys - c.sells - c.assetFees
          ≠ c.endingBrokerQuantity ∨ e.netInventoryQuantity ≠ some c.endingBrokerQuantity)
        (.valueError "CHECKPOINT_QUANTITY_NOT_CONSERVED")
  | _, _, _ => .error ⟨.other, "population_proof_id"⟩

/-- `verify_checkpoint`. -/
def verifyCheckpoint (w : Accounts) (e : AccountingEpoch) : Except Raised Unit := do
  raiseIf (e.feeAccountingStatus ≠ .reconciledNet) (.valueError "CHECKPOINT_NOT_RECONCILED")
  match e.checkpointId with
  | none => .error ⟨.other, "checkpoint_id"⟩
  | some id => do
      raiseIf (w.checkpoints.lookup id ≠ some e) (.valueError "CHECKPOINT_RECEIPT_MISMATCH")
      raiseIf (id ≠ ⟨e.accountingEpochId, e.checkpointVersion, e.populationProof⟩ ∨
        id ∈ e.supersededCheckpointIds) (.valueError "CHECKPOINT_VERSION_INVALID")
      verifyPopulation verified w e

/-- What an issue is about. -/
inductive Subject
  | epoch (id : String)
  | fill (id : String)
  | asset (key : String)
  deriving DecidableEq

/-- The fills on record that an epoch should declare. -/
def expectedFills (w : Accounts) (e : AccountingEpoch) : List String :=
  ((assetFills w e.canonicalAssetKey).filter fun f => f.tradeIntentId ∈ e.tradeIntentIds).map
    fun f => f.fillId

/-- The epoch declares the fills on record, each once, and there are some. -/
def declaresFills (w : Accounts) (e : AccountingEpoch) : Bool :=
  !(expectedFills w e).isEmpty && decide e.fillIds.Nodup
    && (e.fillIds.all fun id => (expectedFills w e).contains id)
    && (expectedFills w e).all fun id => e.fillIds.contains id

/-- What is wrong with an epoch. -/
def epochIssue (w : Accounts) (e : AccountingEpoch) : Option String :=
  if declaresFills w e then
    match verifyCheckpoint verified w e with
    | .ok _ => none
    | .error raised => some raised.text
  else some "CHECKPOINT_EPOCH_FILL_POPULATION_MISMATCH"

/-- How often a fill is declared, by epochs that declare the fills on record. -/
def covered (w : Accounts) (fillId : String) : ℕ :=
  ((w.epochs.rows.filter fun e => declaresFills w e).map fun e => e.fillIds.count fillId).sum

/-- What is wrong with the membership of a fill. -/
def fillIssue (w : Accounts) (fillId : String) : Option String :=
  if covered w fillId = 1 then none
  else if covered w fillId = 0 then some "CHECKPOINT_FILL_MEMBERSHIP_MISSING"
  else some "CHECKPOINT_FILL_MEMBERSHIP_DUPLICATED"

/-- The latest of some epochs; of equally late ones, the first. -/
def latestEpoch : List AccountingEpoch → Option AccountingEpoch
  | [] => none
  | e :: es => some (es.foldl (fun best e => if best.openedAt < e.openedAt then e else best) e)

/-- What is wrong with an instrument: its latest epoch must end with what lots and holdings hold. -/
def assetIssue (w : Accounts) (key : String) : Option String :=
  let epochs := (epochsFor w key).insertionSort fun a b => a.accountingEpochId ≤ b.accountingEpochId
  match latestEpoch epochs with
  | none => some "CHECKPOINT_EPOCH_MISSING"
  | some latest =>
      let lots := w.store.positionLots.rows.filter fun l =>
        assetIdentityKey l.asset = key && !w.store.convertedLots.contains l.lotId
      let holdings := w.store.holdings.rows.filter fun h => assetIdentityKey h.asset = key
      match latest.endingBrokerQuantity with
      | none => some "conversion from NoneType to Decimal is not supported"
      | some quantity =>
          if quantity = (lots.map fun l => l.signedQuantity).sum ∧
              quantity = (holdings.map fun h => h.quantity).sum then none
          else some "CHECKPOINT_CURRENT_QUANTITY_MISMATCH"

/-- The instruments that anything on record is about. -/
def assetKeys (w : Accounts) : List String :=
  sortedSet ((w.store.fills.rows.map fun f => assetIdentityKey f.asset)
    ++ (((w.store.positionLots.rows.filter fun l =>
        !w.store.convertedLots.contains l.lotId).map fun l => assetIdentityKey l.asset)
    ++ ((w.store.holdings.rows.map fun h => assetIdentityKey h.asset)
    ++ w.epochs.rows.map fun e => e.canonicalAssetKey)))

/-- `checkpoint_issues`: every epoch, every fill and every instrument is checked anew. -/
def checkpointIssues (w : Accounts) : List (Subject × String) :=
  (w.epochs.rows.filterMap fun e =>
      (epochIssue verified w e).map fun text => (.epoch e.accountingEpochId, text))
    ++ ((w.store.fills.rows.filterMap fun f =>
      (fillIssue w f.fillId).map fun text => (.fill f.fillId, text))
    ++ (assetKeys w).filterMap fun key =>
      (assetIssue w key).map fun text => (.asset key, text))

end Check

end Epochs

end TradePulse
