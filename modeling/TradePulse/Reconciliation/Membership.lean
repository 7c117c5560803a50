/-
**Which activities belong to a generation** (`reconciliation/membership.py`, and the pagination
proof of `activity_cursor.py`).

A verification generation opens with a population of activities, and may be sealed with another one.
Each pass classifies the whole feed against these two: what is in the opening population is before
the generation; what comes after its last activity is in it; what turns up before that is in it only
if it belongs to an order or a fill of the database; and so on after the seal.  A pass stores a
record of all it decided from, which can be verified on its own.

The feed grows, and not only at its end.

Main definitions:

* `InboxActivity`, `Pagination`, `validatePagination` — the feed, and that it is complete;
* `OpeningCheckpoint`, `ClosingCheckpoint` — the two populations of a generation;
* `classify`, `classifyPopulation`, `verifyMembershipRecord` — the classification, the pass, and
  the verification of its record.

Main results:

* `classifyPopulation_ok` — what a pass does;
* `verifyMembershipRecord_ok` — the record of a pass is accepted, with the same classifications.
-/

import Mathlib.Data.Finset.Basic
import Mathlib.Data.String.Basic
import TradePulse.Reconciliation.FillCursor
import TradePulse.Reconciliation.HistoricalFees

set_option autoImplicit false

namespace TradePulse

open HistoricalFees Storage

/-! ### The feed -/

/-- An activity with everything that is read of it. -/
structure InboxActivity extends FeeReceipt where
  currency : String := ""
  orderId : Option String := none
  fillId : Option String := none
  brokerFillId : Option String := none
  assetId : Option String := none
  deriving DecidableEq

/-- A page as it was received. -/
structure FeedPage where
  pageSize : ℤ
  direction : String
  pageToken : Option String
  /-- The request asked for a part of the feed only. -/
  filtered : Bool
  activityIds : List String
  terminal : Bool
  responseHash : List InboxActivity
  receivedAt : Option Instant
  deriving DecidableEq

/-- How a feed was read.  A digest is represented by what it is the digest of. -/
structure Pagination where
  complete : Bool
  populationHash : List InboxActivity
  activityIds : List String
  pages : List FeedPage
  resumedFrom : Option String := none
  resumePages : List FeedPage := []
  deriving DecidableEq

/-- `page.pop("received_at")`. -/
def FeedPage.observationIndependent (page : FeedPage) : FeedPage := { page with receivedAt := none }

/-- `observation_independent`. -/
def Pagination.observationIndependent (proof : Pagination) : Pagination :=
  { proof with
    pages := proof.pages.map FeedPage.observationIndependent
    resumePages := proof.resumePages.map FeedPage.observationIndependent }

/-- The pages follow one another, each with the rows it says it has, and end the feed. -/
def checkPages : Option String → List InboxActivity → List FeedPage → Except Raised Unit
  | _, rest, [] => raiseIf (rest ≠ []) (assetFeeIntegrity "ACTIVITY_PAGINATION_INCOMPLETE")
  | boundary, rest, page :: pages => do
      let segment := rest.take page.activityIds.length
      raiseIf (page.direction ≠ "asc" ∨ page.pageToken ≠ boundary ∨ page.filtered = true ∨
          page.activityIds ≠ segment.map (·.id) ∨ ¬ (1 ≤ page.pageSize ∧ page.pageSize ≤ 100) ∨
          page.pageSize < page.activityIds.length ∨
          page.terminal ≠ decide ((page.activityIds.length : ℤ) < page.pageSize) ∨
          page.responseHash ≠ segment ∨ page.terminal ≠ pages.isEmpty)
        (assetFeeIntegrity "ACTIVITY_PAGINATION_INVALID")
      checkPages (page.activityIds.getLast?.or boundary) (rest.drop page.activityIds.length) pages

/-- `validate_pagination`. -/
def validatePagination (raw : List InboxActivity) (proof : Pagination) : Except Raised Unit := do
  raiseIf ("" ∈ raw.map (·.id) ∨ ¬ (raw.map (·.id)).Nodup)
    (assetFeeIntegrity "ACTIVITY_PAGINATION_DUPLICATE_IDENTITY")
  raiseIf (proof.complete = false) (assetFeeIntegrity "ACTIVITY_PAGINATION_INCOMPLETE")
  raiseIf (proof.populationHash ≠ raw) (assetFeeIntegrity "ACTIVITY_POPULATION_HASH_MISMATCH")
  raiseIf (proof.activityIds ≠ raw.map (·.id))
    (assetFeeIntegrity "ACTIVITY_PAGE_POPULATION_MISMATCH")
  raiseIf (proof.pages.isEmpty = true) (assetFeeIntegrity "ACTIVITY_PAGINATION_INCOMPLETE")
  checkPages none raw proof.pages

theorem checkPages_observationIndependent (boundary : Option String) (rest : List InboxActivity)
    (pages : List FeedPage) :
    checkPages boundary rest (pages.map FeedPage.observationIndependent) =
      checkPages boundary rest pages := by
  induction pages generalizing boundary rest with
  | nil => rfl
  | cons page pages ih => simp [checkPages, FeedPage.observationIndependent, ih]

theorem validatePagination_observationIndependent (raw : List InboxActivity) (proof : Pagination) :
    validatePagination raw proof.observationIndependent = validatePagination raw proof := by
  simp only [validatePagination, Pagination.observationIndependent, List.isEmpty_map,
    checkPages_observationIndependent]
  rfl

/-- What a proof that is accepted says about the feed. -/
theorem validatePagination_ok {raw : List InboxActivity} {proof : Pagination}
    (h : validatePagination raw proof = .ok ()) :
    (raw.map (·.id)).Nodup ∧ proof.populationHash = raw := by
  unfold validatePagination at h
  obtain ⟨⟨⟩, h₁, h⟩ := except_bind_eq_ok.1 h
  obtain ⟨⟨⟩, -, h⟩ := except_bind_eq_ok.1 h
  obtain ⟨⟨⟩, h₃, -⟩ := except_bind_eq_ok.1 h
  have h₁ := raiseIf_eq_ok_iff.1 h₁
  have h₃ := raiseIf_eq_ok_iff.1 h₃
  exact ⟨not_not.1 fun hn => h₁ (.inr hn), not_not.1 h₃⟩

/-- `activity_time`. -/
def activityTime (raw : InboxActivity) : Except Raised Instant :=
  if raw.isFill then
    match raw.transactionTime with
    | some time => .ok time
    | none => .error (.valueError "activity_transaction_time must be timezone-aware")
  else
    match raw.createdAt with
    | some time => .ok time
    | none => .error (.valueError "activity_created_at must be timezone-aware")

/-! ### The two populations of a generation -/

/-- A position of the account at the opening. -/
structure OpeningPosition where
  assetClass : AssetClass
  symbol : String
  qty : ℚ
  deriving DecidableEq

/-- The last activity of a population, which a cursor names. -/
def cursorOf (activities : List InboxActivity) : Option String := activities.getLast?.map (·.id)

/-- The opening of a generation, as `validate_checkpoint` lets it through. -/
structure OpeningCheckpoint where
  verificationGenerationId : String
  checkpointId : String
  openedAt : Instant
  activities : List InboxActivity
  positions : List OpeningPosition
  nodup : (activities.map (·.id)).Nodup
  before : ∀ raw ∈ activities, ∀ time, activityTime raw = .ok time → time ≤ openedAt
  deriving DecidableEq

/-- `opening_activity_cursor`. -/
def OpeningCheckpoint.cursor (c : OpeningCheckpoint) : Option String := cursorOf c.activities

/-- What a generation was sealed with. -/
structure ClosingCheckpoint where
  sealedAt : Instant
  activities : List InboxActivity
  cursor : Option String
  populationHash : List InboxActivity
  deriving DecidableEq

/-! ### The classification -/

/-- What an activity is to a generation. -/
inductive ActivityMembership
  | preGeneration | inGeneration | lateArrivingInGeneration | postGeneration
  | unresolvedGenerationMembership
  deriving DecidableEq

/-- `ELIGIBLE_MEMBERSHIPS`. -/
def ActivityMembership.eligible : ActivityMembership → Bool
  | .inGeneration | .lateArrivingInGeneration => true
  | _ => false

/-- What a pass decides from. -/
structure MembershipEvidence where
  opening : List InboxActivity
  opened : Option Instant
  observed : Instant
  boundaryIndex : ℤ
  orders : Finset String
  fills : Finset String
  closing : Option ClosingCheckpoint
  closingIndex : ℤ

/-- The activity names an order or a fill of the database. -/
def InboxActivity.linked (raw : InboxActivity) (orders fills : Finset String) : Prop :=
  raw.orderId.any (· ∈ orders) = true ∨ raw.fillId.any (· ∈ fills) = true ∨
    raw.brokerFillId.any (· ∈ fills) = true

instance (raw : InboxActivity) (orders fills : Finset String) :
    Decidable (raw.linked orders fills) :=
  inferInstanceAs (Decidable (_ ∨ _ ∨ _))

/-- The rest of `_classify`, for an activity that happened at a time. -/
def classifyAt (e : MembershipEvidence) (index : ℕ) (raw : InboxActivity) (time : Instant) :
    ActivityMembership × String :=
  if raw.id ∈ e.opening.map (·.id) then (.preGeneration, "immutable_opening_population_member")
  else
    match e.opened with
    | none => (.inGeneration, "unbound_operational_population")
    | some opened =>
        if e.observed < time then (.unresolvedGenerationMembership, "future_activity_timestamp")
        else if time < opened then
          (.unresolvedGenerationMembership, "new_receipt_predates_opening")
        else
          match e.closing.filter fun closing => raw.id ∉ closing.activities.map (·.id) with
          | some closing =>
              if raw.linked e.orders e.fills then
                (.lateArrivingInGeneration, "generation_link_after_sealed_population")
              else if e.closingIndex < index ∧ closing.sealedAt ≤ time then
                (.postGeneration, "absent_at_seal_and_after_verified_closing_cursor")
              else
                (.unresolvedGenerationMembership,
                  "absent_at_seal_without_proven_closing_boundary")
          | none =>
              if e.boundaryIndex < index then
                (.inGeneration, "absent_at_opening_and_after_verified_cursor")
              else if raw.linked e.orders e.fills then
                (.lateArrivingInGeneration,
                  "absent_at_opening_and_generation_order_or_fill_link")
              else
                (.unresolvedGenerationMembership,
                  "before_opening_cursor_without_generation_link")

/-- `_classify`. -/
def classify (e : MembershipEvidence) (index : ℕ) (raw : InboxActivity) :
    Except Raised (ActivityMembership × String) := do
  let time ← activityTime raw
  return classifyAt e index raw time

/-- An activity with its classification and the reason for it. -/
structure Classified where
  id : String
  status : ActivityMembership
  reason : String
  deriving DecidableEq

/-- What the activities of a population are. -/
abbrev Classifications : Type := List Classified

def Classifications.statusOf (cs : Classifications) (id : String) : Option ActivityMembership :=
  (List.find? (fun c => c.id = id) cs).map (·.status)

/-- `ids.index(cursor)`, or before everything without a cursor. -/
def indexOf (ids : List String) : Option String → Except Raised ℤ
  | none => .ok (-1)
  | some cursor =>
      if cursor ∈ ids then .ok (ids.idxOf cursor)
      else .error (.valueError "cursor is not in list")

/-- Every row of an older population is in this one, unchanged. -/
def retains (older current : List InboxActivity) : Prop :=
  ∀ raw ∈ older, current.find? (fun row => row.id = raw.id) = some raw

instance (older current : List InboxActivity) : Decidable (retains older current) :=
  inferInstanceAs (Decidable (∀ raw ∈ older, _))

/-! ### The record of a pass -/

/-- What a pass stores: all it decided from. -/
structure MembershipBody where
  verificationGenerationId : String
  generationOpeningCheckpointId : String
  openingActivityCursor : Option String
  openingActivityPopulationHash : List InboxActivity
  populationHash : List InboxActivity
  activities : List InboxActivity
  generationOrderIds : Finset String
  generationFillIds : Finset String
  classified : Classifications
  pagination : Pagination
  closingCheckpoint : Option ClosingCheckpoint
  deriving DecidableEq

/-- The record of a pass.  Its id is the digest of its body, so that the body is the id. -/
structure MembershipRecord where
  body : MembershipBody
  outcome : ReconciliationOutcome
  occurredAt : Instant
  deriving DecidableEq

/-- The outcome that goes with classifications. -/
def outcomeOf (cs : Classifications) : ReconciliationOutcome :=
  if cs.any (fun c => c.status = .unresolvedGenerationMembership) then .driftDetected else .matched

/-- Each activity has the classification that the evidence gives it. -/
def checkClassifications (e : MembershipEvidence) (cs : Classifications) :
    ℕ → List InboxActivity → Except Raised Unit
  | _, [] => .ok ()
  | index, raw :: rest => do
      let expected ← classify e index raw
      raiseIf (List.find? (fun c => c.id = raw.id) cs ≠ some ⟨raw.id, expected.1, expected.2⟩)
        (.valueError "GENERATION_MEMBERSHIP_CLASSIFICATION_INVALID")
      checkClassifications e cs (index + 1) rest

/-- `verify_membership_record`. -/
def verifyMembershipRecord (checkpoint : OpeningCheckpoint) (record : MembershipRecord) :
    Except Raised Classifications := do
  let body := record.body
  raiseIf (body.verificationGenerationId ≠ checkpoint.verificationGenerationId ∨
      body.generationOpeningCheckpointId ≠ checkpoint.checkpointId ∨
      body.openingActivityCursor ≠ checkpoint.cursor ∨
      body.openingActivityPopulationHash ≠ checkpoint.activities)
    (.valueError "GENERATION_MEMBERSHIP_PROOF_MISMATCH")
  let activities := body.activities
  validatePagination activities body.pagination
  raiseIf (body.populationHash ≠ body.pagination.populationHash)
    (.valueError "GENERATION_MEMBERSHIP_POPULATION_MISMATCH")
  raiseIf (¬ retains checkpoint.activities activities)
    (.valueError "GENERATION_OPENING_ACTIVITY_CHANGED_OR_MISSING")
  let ids := activities.map (·.id)
  let boundaryIndex ← indexOf ids checkpoint.cursor
  raiseIf (¬ (∀ c ∈ body.classified, c.id ∈ ids) ∨ ¬ ∀ id ∈ ids, id ∈ body.classified.map (·.id))
    (.valueError "GENERATION_MEMBERSHIP_POPULATION_INCOMPLETE")
  let closing := body.closingCheckpoint
  let closingIndex ← indexOf ids (closing.bind (·.cursor))
  raiseIf (closing.any fun closing =>
      closing.activities ≠ closing.populationHash ∨ ¬ retains closing.activities activities)
    (.valueError "GENERATION_SEALED_POPULATION_MISMATCH")
  checkClassifications
    { opening := checkpoint.activities
      opened := some checkpoint.openedAt
      observed := record.occurredAt
      boundaryIndex := boundaryIndex
      orders := body.generationOrderIds
      fills := body.generationFillIds
      closing := closing
      closingIndex := closingIndex }
    body.classified 0 activities
  raiseIf (record.outcome ≠ outcomeOf body.classified)
    (.valueError "GENERATION_MEMBERSHIP_OUTCOME_INVALID")
  return body.classified

/-! ### The pass -/

/-- What was sealed: the rows there were, and when. -/
structure GenerationSeal where
  sealedAt : Instant
  evidence : List MembershipRecord
  deriving DecidableEq

instance : Record InboxActivity where
  recordId raw := raw.id
  uniqueValue _ := none

/-- What a pass reads and writes.  The orders and the fills are those that the broker knows. -/
structure GenerationDatabase where
  opening : Option OpeningCheckpoint
  generationSeal : Option GenerationSeal := none
  orders : Finset String := ∅
  fills : Finset String := ∅
  inbox : Table InboxActivity := default
  records : List MembershipRecord := []

/-- The first of the records with the greatest time. -/
def latestRecord : List MembershipRecord → Option MembershipRecord
  | [] => none
  | record :: rest =>
      match latestRecord rest with
      | some later => some (if record.occurredAt < later.occurredAt then later else record)
      | none => some record

/-- `load_bound_closing_checkpoint`: the latest record that was sealed. -/
def loadBoundClosingCheckpoint (db : GenerationDatabase) :
    Except Raised (Option ClosingCheckpoint) :=
  match db.opening, db.generationSeal with
  | some checkpoint, some sealed => do
      match latestRecord sealed.evidence with
      | none => .error ⟨.other, "sealed_membership_evidence_missing"⟩
      | some record =>
          let _ ← verifyMembershipRecord checkpoint record
          return some
            { sealedAt := sealed.sealedAt
              activities := record.body.activities
              cursor := cursorOf record.body.activities
              populationHash := record.body.populationHash }
  | _, _ => .ok none

/-- Classify the rows one after the other, and keep each in the inbox. -/
def receive (e : MembershipEvidence) :
    ℕ → List InboxActivity → Table InboxActivity →
      Except Raised (Classifications × Table InboxActivity)
  | _, [], inbox => .ok ([], inbox)
  | index, raw :: rest, inbox => do
      let status ← classify e index raw
      raiseIf ((inbox.get? raw.id).any fun existing => existing ≠ raw)
        (.valueError ("BROKER_ACTIVITY_RECEIPT_CHANGED:" ++ raw.id))
      let received ← receive e (index + 1) rest (inbox.createOnce raw)
      return (⟨raw.id, status.1, status.2⟩ :: received.1, received.2)

/-- What a pass says. -/
structure MembershipResult where
  classified : Classifications
  checkpoint : Option OpeningCheckpoint
  populationHash : List InboxActivity

/-- The record that a pass stores. -/
def membershipRecord (checkpoint : OpeningCheckpoint) (closing : Option ClosingCheckpoint)
    (db : GenerationDatabase) (activities : List InboxActivity) (pagination : Pagination)
    (classified : Classifications) (now : Instant) : MembershipRecord where
  body :=
    { verificationGenerationId := checkpoint.verificationGenerationId
      generationOpeningCheckpointId := checkpoint.checkpointId
      openingActivityCursor := checkpoint.cursor
      openingActivityPopulationHash := checkpoint.activities
      populationHash := pagination.populationHash
      activities := activities
      generationOrderIds := db.orders
      generationFillIds := db.fills
      classified := classified
      pagination := pagination.observationIndependent
      closingCheckpoint := closing }
  outcome := outcomeOf classified
  occurredAt := now

/-- Insert a record unless there is one with its id. -/
def insertRecord (records : List MembershipRecord) (record : MembershipRecord) :
    List MembershipRecord :=
  if record.body ∈ records.map (·.body) then records else records ++ [record]

/-- `classify_population`. -/
def classifyPopulation (activities : List InboxActivity) (pagination : Pagination) (now : Instant)
    (db : GenerationDatabase) : Except Raised (MembershipResult × GenerationDatabase) := do
  validatePagination activities pagination
  let closing ← loadBoundClosingCheckpoint db
  let opening := (db.opening.map (·.activities)).getD []
  raiseIf (¬ retains opening activities)
    (.valueError "GENERATION_OPENING_ACTIVITY_CHANGED_OR_MISSING")
  let ids := activities.map (·.id)
  let boundaryIndex ← indexOf ids (db.opening.bind (·.cursor))
  let closingIndex ← indexOf ids (closing.bind (·.cursor))
  raiseIf (closing.any fun closing => ¬ retains closing.activities activities)
    (.valueError "GENERATION_SEALED_ACTIVITY_CHANGED_OR_MISSING")
  let received ← receive
    { opening := opening
      opened := db.opening.map (·.openedAt)
      observed := now
      boundaryIndex := boundaryIndex
      orders := db.orders
      fills := db.fills
      closing := closing
      closingIndex := closingIndex }
    0 activities db.inbox
  let records :=
    match db.opening with
    | some checkpoint => insertRecord db.records
        (membershipRecord checkpoint closing db activities pagination received.1 now)
    | none => db.records
  return (⟨received.1, db.opening, pagination.populationHash⟩,
    { db with inbox := received.2, records := records })

/-- `require_resolved`. -/
def requireResolved (m : MembershipResult) : Except Raised Unit :=
  let unresolved :=
    ((m.classified.filter fun c => c.status = .unresolvedGenerationMembership).map (·.id))
      |>.insertionSort (· ≤ ·)
  raiseIf (unresolved ≠ [])
    (.valueError ("UNRESOLVED_GENERATION_MEMBERSHIP:" ++ ",".intercalate unresolved))

/-- `eligible_activities`. -/
def eligibleActivities (activities : List InboxActivity) (m : MembershipResult) :
    Except Raised (List InboxActivity) := do
  requireResolved m
  return activities.filter fun raw => (m.classified.statusOf raw.id).any (·.eligible)

/-! ### What a pass does -/

/-- Each row of a population has the classification that the evidence gives it at its place. -/
inductive ClassifiedBy (e : MembershipEvidence) : ℕ → List InboxActivity → Classifications → Prop
  | nil {index : ℕ} : ClassifiedBy e index [] []
  | cons {index : ℕ} {raw : InboxActivity} {rest : List InboxActivity}
      {status : ActivityMembership} {reason : String} {cs : Classifications}
      (head : classify e index raw = .ok (status, reason))
      (tail : ClassifiedBy e (index + 1) rest cs) :
      ClassifiedBy e index (raw :: rest) (⟨raw.id, status, reason⟩ :: cs)

theorem receive_ok {e : MembershipEvidence} {index : ℕ} {activities : List InboxActivity}
    {inbox inbox' : Table InboxActivity} {cs : Classifications}
    (h : receive e index activities inbox = .ok (cs, inbox')) :
    ClassifiedBy e index activities cs := by
  induction activities generalizing index inbox cs with
  | nil =>
      cases h
      exact .nil
  | cons raw rest ih =>
      unfold receive at h
      obtain ⟨status, hstatus, h⟩ := except_bind_eq_ok.1 h
      obtain ⟨⟨⟩, -, h⟩ := except_bind_eq_ok.1 h
      obtain ⟨⟨cs', inbox''⟩, hrest, h⟩ := except_bind_eq_ok.1 h
      cases h
      exact .cons hstatus (ih hrest)

namespace ClassifiedBy

variable {e : MembershipEvidence} {index : ℕ} {activities : List InboxActivity}
  {cs : Classifications}

theorem map_id (h : ClassifiedBy e index activities cs) :
    cs.map (·.id) = activities.map (·.id) := by
  induction h with
  | nil => rfl
  | cons _ _ ih => simp [ih]

theorem of_statusOf (h : ClassifiedBy e index activities cs) {id : String}
    {status : ActivityMembership} (hstatus : cs.statusOf id = some status) :
    ∃ raw ∈ activities, raw.id = id ∧ ∃ reason,
      classify e (index + (activities.map (·.id)).idxOf id) raw = .ok (status, reason) := by
  induction h with
  | nil => cases hstatus
  | @cons index raw rest status' reason cs head tail ih =>
      by_cases hid : raw.id = id
      · subst hid
        simp only [Classifications.statusOf, List.find?_cons_of_pos, decide_true,
          Option.map_some, Option.some.injEq] at hstatus
        subst hstatus
        exact ⟨raw, List.mem_cons_self .., rfl, reason, by simpa using head⟩
      · have hrest : Classifications.statusOf cs id = some status := by
          simpa [Classifications.statusOf, hid] using hstatus
        obtain ⟨raw', hmem, hid', reason', h'⟩ := ih hrest
        refine ⟨raw', List.mem_cons_of_mem _ hmem, hid', reason', ?_⟩
        rw [List.map_cons, List.idxOf_cons_ne _ hid]
        rwa [show index + (List.idxOf id (rest.map (·.id)) + 1) =
          index + 1 + List.idxOf id (rest.map (·.id)) by omega]

/-- The record's own check of the classifications. -/
theorem check (h : ClassifiedBy e index activities cs) {all : Classifications}
    (hfind : ∀ c ∈ cs, List.find? (fun x => x.id = c.id) all = some c) :
    checkClassifications e all index activities = .ok () := by
  induction h with
  | nil => rfl
  | cons head tail ih =>
      have hhead := hfind _ (List.mem_cons_self ..)
      unfold checkClassifications
      rw [head]
      simp only [hhead, ne_eq, not_true_eq_false, raiseIf, if_false, bind, Except.bind]
      exact ih fun c hc => hfind c (List.mem_cons_of_mem _ hc)

end ClassifiedBy

/-- What the classification of a pass rests on. -/
structure Passed (db : GenerationDatabase) (activities : List InboxActivity)
    (pagination : Pagination) (now : Instant) (closing : Option ClosingCheckpoint)
    (cs : Classifications) : Prop where
  pages : validatePagination activities pagination = .ok ()
  loaded : loadBoundClosingCheckpoint db = .ok closing
  retained : retains ((db.opening.map (·.activities)).getD []) activities
  retainedSince : ∀ c, closing = some c → retains c.activities activities
  classified : ∃ boundaryIndex closingIndex,
    indexOf (activities.map (·.id)) (db.opening.bind (·.cursor)) = .ok boundaryIndex ∧
      indexOf (activities.map (·.id)) (closing.bind (·.cursor)) = .ok closingIndex ∧
      ClassifiedBy
        { opening := (db.opening.map (·.activities)).getD []
          opened := db.opening.map (·.openedAt)
          observed := now
          boundaryIndex := boundaryIndex
          orders := db.orders
          fills := db.fills
          closing := closing
          closingIndex := closingIndex }
        0 activities cs

/-- **What a pass does.** -/
theorem classifyPopulation_ok {activities : List InboxActivity} {pagination : Pagination}
    {now : Instant} {db db' : GenerationDatabase} {m : MembershipResult}
    (h : classifyPopulation activities pagination now db = .ok (m, db')) :
    ∃ closing, Passed db activities pagination now closing m.classified ∧
      m.checkpoint = db.opening ∧
      db' = { db with
        inbox := db'.inbox
        records := match db.opening with
          | some checkpoint => insertRecord db.records
              (membershipRecord checkpoint closing db activities pagination m.classified now)
          | none => db.records } := by
  unfold classifyPopulation at h
  obtain ⟨⟨⟩, hpages, h⟩ := except_bind_eq_ok.1 h
  obtain ⟨closing, hloaded, h⟩ := except_bind_eq_ok.1 h
  obtain ⟨⟨⟩, hretained, h⟩ := except_bind_eq_ok.1 h
  obtain ⟨boundaryIndex, hboundary, h⟩ := except_bind_eq_ok.1 h
  obtain ⟨closingIndex, hclosing, h⟩ := except_bind_eq_ok.1 h
  obtain ⟨⟨⟩, hsince, h⟩ := except_bind_eq_ok.1 h
  obtain ⟨⟨cs, inbox⟩, hreceived, h⟩ := except_bind_eq_ok.1 h
  cases h
  have hretained := not_not.1 (raiseIf_eq_ok_iff.1 hretained)
  have hsince : ∀ c, closing = some c → retains c.activities activities := by
    rintro c rfl
    simpa using raiseIf_eq_ok_iff.1 hsince
  exact ⟨closing, ⟨hpages, hloaded, hretained, hsince, boundaryIndex, closingIndex, hboundary,
    hclosing, receive_ok hreceived⟩, rfl, rfl⟩

/-! ### The record of a pass -/

theorem find?_of_nodup {cs : Classifications} (hn : (cs.map (·.id)).Nodup) {c : Classified}
    (hc : c ∈ cs) : List.find? (fun x => x.id = c.id) cs = some c := by
  induction cs with
  | nil => cases hc
  | cons d cs ih =>
      rw [List.map_cons, List.nodup_cons] at hn
      rcases List.mem_cons.1 hc with rfl | hc
      · simp
      · have hne : d.id ≠ c.id := fun h => hn.1 (h ▸ List.mem_map_of_mem hc)
        rw [List.find?_cons_of_neg (by simpa using hne)]
        exact ih hn.2 hc

/-- A record that is verified is of the population whose digest it has. -/
theorem verifyMembershipRecord_population {checkpoint : OpeningCheckpoint}
    {record : MembershipRecord} {cs : Classifications}
    (h : verifyMembershipRecord checkpoint record = .ok cs) :
    record.body.populationHash = record.body.activities := by
  unfold verifyMembershipRecord at h
  obtain ⟨⟨⟩, -, h⟩ := except_bind_eq_ok.1 h
  obtain ⟨⟨⟩, hpages, h⟩ := except_bind_eq_ok.1 h
  obtain ⟨⟨⟩, hhash, -⟩ := except_bind_eq_ok.1 h
  exact (not_not.1 (raiseIf_eq_ok_iff.1 hhash)).trans (validatePagination_ok hpages).2

/-- The closing checkpoint is the population of a record that is verified. -/
theorem loadBoundClosingCheckpoint_ok {db : GenerationDatabase} {c : ClosingCheckpoint}
    (h : loadBoundClosingCheckpoint db = .ok (some c)) :
    ∃ sealed record, db.generationSeal = some sealed ∧
      latestRecord sealed.evidence = some record ∧
      c.activities = record.body.activities ∧ c.populationHash = c.activities := by
  unfold loadBoundClosingCheckpoint at h
  cases hopening : db.opening with
  | none =>
      rw [hopening] at h
      cases h
  | some checkpoint =>
      cases hseal : db.generationSeal with
      | none =>
          rw [hopening, hseal] at h
          cases h
      | some sealed =>
          rw [hopening, hseal] at h
          cases hrecord : latestRecord sealed.evidence with
          | none =>
              simp only [hrecord] at h
              cases h
          | some record =>
              simp only [hrecord] at h
              obtain ⟨cs, hverified, h⟩ := except_bind_eq_ok.1 h
              cases h
              exact ⟨sealed, record, rfl, hrecord, rfl, verifyMembershipRecord_population hverified⟩

/-- **The record of a pass is accepted, with the same classifications.** -/
theorem verifyMembershipRecord_ok {db : GenerationDatabase} {activities : List InboxActivity}
    {pagination : Pagination} {now : Instant} {closing : Option ClosingCheckpoint}
    {cs : Classifications} {checkpoint : OpeningCheckpoint} (hopening : db.opening = some checkpoint)
    (h : Passed db activities pagination now closing cs) :
    verifyMembershipRecord checkpoint
      (membershipRecord checkpoint closing db activities pagination cs now) = .ok cs := by
  obtain ⟨hn, hhash⟩ := validatePagination_ok h.pages
  obtain ⟨boundaryIndex, closingIndex, hboundary, hclosing, hclassified⟩ := h.classified
  have hretained := h.retained
  simp only [hopening, Option.map_some, Option.getD_some, Option.bind_some] at *
  have hids := hclassified.map_id
  have hpages : validatePagination activities pagination.observationIndependent = .ok () := by
    rw [validatePagination_observationIndependent]
    exact h.pages
  have hcheck := hclassified.check fun c hc => find?_of_nodup (hids ▸ hn) hc
  have hsealed : (closing.any fun c =>
      c.activities ≠ c.populationHash ∨ ¬ retains c.activities activities) = false := by
    cases hc : closing with
    | none => rfl
    | some c =>
        obtain ⟨_, _, -, -, -, hpopulation⟩ := loadBoundClosingCheckpoint_ok (hc ▸ h.loaded)
        simp [hpopulation, h.retainedSince c hc]
  have hcomplete : ¬ (¬ (∀ c ∈ cs, c.id ∈ activities.map (·.id)) ∨
      ¬ ∀ id ∈ activities.map (·.id), id ∈ cs.map (·.id)) := by
    rw [← hids]
    simp only [not_or, not_not]
    exact ⟨fun c hc => List.mem_map_of_mem hc, fun id hid => hid⟩
  unfold verifyMembershipRecord membershipRecord
  refine except_bind_eq_ok.2 ⟨(), raiseIf_eq_ok_iff.2 (by simp), ?_⟩
  refine except_bind_eq_ok.2 ⟨(), hpages, ?_⟩
  refine except_bind_eq_ok.2 ⟨(), raiseIf_eq_ok_iff.2 (not_not.2 rfl), ?_⟩
  refine except_bind_eq_ok.2 ⟨(), raiseIf_eq_ok_iff.2 (not_not.2 hretained), ?_⟩
  refine except_bind_eq_ok.2 ⟨boundaryIndex, hboundary, ?_⟩
  refine except_bind_eq_ok.2 ⟨(), raiseIf_eq_ok_iff.2 hcomplete, ?_⟩
  refine except_bind_eq_ok.2 ⟨closingIndex, hclosing, ?_⟩
  refine except_bind_eq_ok.2 ⟨(), raiseIf_eq_ok_iff.2 (by rw [hsealed]; simp), ?_⟩
  refine except_bind_eq_ok.2 ⟨(), hcheck, ?_⟩
  exact except_bind_eq_ok.2 ⟨(), raiseIf_eq_ok_iff.2 (not_not.2 rfl), rfl⟩

end TradePulse
