/-
**Passes that attribute dividends, and what a reversal takes back**
(`reconciliation/dividend_attribution.py`).

A pass reads everything once: the receipts, the statuses of their attribution and the rows
attributed so far.  It then takes up the groups one after the other, attributes what it can, and
commits each group on its own.  A reversal is given the rows of the one attributed group that it
matches; nothing records that this group has been taken back, and the next reversal of the same
amounts matches it again.

Between any two steps of a pass the broker may report further activities, and a pass may end early.

Main definitions:

* `DividendStore`, `record` — the tables, and what posting an activity does to them;
* `Pass`, `Pass.decision`, `World`, `passes` — a pass with what it read, and the machine;
* `Answers` — an attributed dividend has the amounts of a reversal;
* `OnceReversed` — no attributed group is taken back twice, and what a group was given of each
  holder is unchanged or undone;
* `Unrepeated` — the step does not take up a reversal with the amounts of a dividend that was taken
  back before, unless another attributed dividend has them too.

Main results:

* `Sound`, `Sound.step` — what holds between any two steps, and that a step keeps it;
* `reversed_at_most_once` — in every run whose steps are `Unrepeated`, no attributed group is taken
  back twice: a reversal that two dividends answer is given to neither;
* `reversed_twice` — a run that takes a dividend back twice.
-/

import TradePulse.Reconciliation.DividendGroups
import TradePulse.Process.Machine

set_option autoImplicit false

namespace TradePulse

open HistoricalFees Storage Process

namespace Dividends

/-! ### The tables -/

structure DividendStore where
  receipts : Table Received := default
  /-- `dividend_attribution_status`. -/
  statuses : Table DividendStatus := default
  /-- `dividend_attributions`. -/
  rows : Table AttributionRow := default

/-- The attribution of the activity is settled. -/
def settledIn (t : Table DividendStatus) (id : String) : Bool :=
  (t.get? id).any fun s => settled s.attributionStatus

/-- `UPDATE ... WHERE record_id=?`. -/
def modify (t : Table DividendStatus) (id : String) (f : DividendStatus → DividendStatus) :
    Table DividendStatus :=
  match t.get? id with
  | some s => t.put (f s)
  | none => t

/-- What posting a dividend for the first time adds (`persist_generation_dividends`). -/
def record (raw : CashActivity) (withheld : Option DecimalText) (now : Instant) (s : DividendStore) :
    DividendStore :=
  match dividendReceipt raw with
  | .ok (some receipt) =>
      if (s.receipts.get? receipt.activityId).isSome then s
      else
        { s with
          receipts := s.receipts.createOnce { toDividendReceipt := receipt, withheld }
          statuses := s.statuses.createOnce (statusPayload receipt now) }
  | _ => s

/-- `write_rows`. -/
def writeRows (rows : List AttributionRow) (t : Table AttributionRow) :
    Except Raised (Table AttributionRow) :=
  rows.foldlM Quarantine.insertRow t

/-- `write_status`, for each of the activities. -/
def writeStatuses (now : Table DividendStatus) (ids : List String) (t : Table DividendStatus) :
    Table DividendStatus :=
  ids.foldl (fun t id => modify t id fun s => (now.get? id).getD s) t

/-- `commit`. -/
def commit (rows : List AttributionRow) (now : Table DividendStatus) (ids : List String)
    (s : DividendStore) : Except Raised DividendStore := do
  let rows ← writeRows rows s.rows
  return { s with rows, statuses := writeStatuses now ids s.statuses }

/-! ### The pass -/

/-- `FINAL_REASONS`. -/
def finalReasons : List String := ["DIVIDEND_TYPE_UNSUPPORTED", "DIVIDEND_RECEIPT_SHAPE_UNVERIFIED"]

/-- A pass: what it read, and how far it got. -/
structure Pass where
  now : Instant
  representation : Representation
  /-- `snapshot["receipts"]`. -/
  receipts : List Received
  /-- `statuses_now`. -/
  statuses : Table DividendStatus
  /-- `snapshot["rows"]`; nothing depends on their order. -/
  rows : List AttributionRow
  openIds : List String
  /-- The announcements attributed already, with their symbols. -/
  consumed : List (String × String)
  todo : List (List Received)
  /-- The open activities whose statuses are still to be written. -/
  closing : List String

/-- The identities of a group. -/
def idsOf (g : List Received) : List String := g.map (·.activityId)

/-- The deadline of a status that has none yet. -/
def withDeadline (deadline : Instant) (s : DividendStatus) : DividendStatus :=
  { s with escalationDeadline := some (s.escalationDeadline.getD deadline) }

/-- The announcement that an attributed activity used up. -/
def consumedBy (receipts : List Received) (s : DividendStatus) : Option (String × String) :=
  if settled s.attributionStatus then
    s.announcementId.bind fun a =>
      (receipts.find? (·.activityId = s.activityId)).map fun r => (r.symbol, a)
  else none

/-- The open activities, in order. -/
def openIn (s : DividendStore) : List String :=
  ((s.statuses.rows.filter fun x => !settled x.attributionStatus).map (·.activityId)).insertionSort
    (· ≤ ·)

/-- The beginning of a pass: one snapshot, and the deadlines. -/
def Pass.begin (s : DividendStore) (now : Instant) (representation : Representation)
    (deadlineOf : String → Instant) : Option Pass :=
  if openIn s = [] then none
  else
    some
      { now, representation
        receipts := s.receipts.rows
        statuses :=
          (openIn s).foldl (fun t id => modify t id (withDeadline (deadlineOf id))) s.statuses
        rows := s.rows.rows
        openIds := openIn s
        consumed := s.statuses.rows.filterMap (consumedBy s.receipts.rows)
        todo := groups s.receipts.rows
        closing := openIn s }

/-- The attributed groups of a symbol that a reversal matches, with the rows mirrored. -/
def Pass.originals (p : Pass) (symbol : String) (members : List Member) :
    List (List Received × List AttributionRow) :=
  (groups p.receipts).filterMap fun g =>
    match g with
    | [] => none
    | first :: _ =>
        if first.symbol ≠ symbol ∨ first.reversal = true then none
        else if g.all (fun r => settledIn p.statuses r.activityId) then
          (mirror (p.rows.filter (·.activityId ∈ idsOf g)) members (g.map Received.member)).map
            (g, ·)
        else none

/-- The one group that a reversal takes back. -/
def Pass.matched (p : Pass) (g : List Received) : Option (List Received × List AttributionRow) :=
  match g with
  | [] => none
  | first :: _ =>
      match p.originals first.symbol (g.map Received.member) with
      | [one] => some one
      | _ => none

/-- `_reverse`. -/
def Pass.reverse (p : Pass) (g : List Received) : Decision :=
  match p.matched g with
  | some (first :: _, mirrored) =>
      match p.statuses.get? first.activityId with
      | some original =>
          { attributionStatus := original.attributionStatus
            entitlementEstablished := original.entitlementEstablished
            reason := none
            announcement := original.announcementId.map fun id =>
              ⟨id, original.announcementSha256.getD ""⟩
            rows := mirrored }
      | none => ⟨.unresolved, none, some "DIVIDEND_REVERSAL_UNMATCHED", none, []⟩
  | _ => ⟨.unresolved, none, some "DIVIDEND_REVERSAL_UNMATCHED", none, []⟩

/-- The pass leaves the group alone: some of it is attributed, or will never be. -/
def Pass.skips (p : Pass) (g : List Received) : Bool :=
  !g.all (fun r => r.activityId ∈ p.openIds) ||
    g.any fun r => (p.statuses.get? r.activityId).any fun s =>
      s.reason.any fun reason => reason ∈ finalReasons

/-- A group is a reversal when its first activity is one. -/
def isReversal (g : List Received) : Bool := g.head?.any (·.reversal)

/-- The decision about a group. -/
def Pass.decision (newYork : Instant → LocalTime) (p : Pass) (g : List Received) (e : Evidence) :
    Except Raised Decision :=
  if isReversal g then .ok (p.reverse g)
  else
    let symbol := (g.head?.map (·.symbol)).getD ""
    Dividends.decide newYork symbol (g.map Received.member)
      ((p.consumed.filter (·.1 = symbol)).map Prod.snd) e p.representation

/-- What a decision does to the status of an activity of the group. -/
def updated (d : Decision) (s : DividendStatus) : DividendStatus :=
  if settled d.attributionStatus then
    { s with
      attributionStatus := d.attributionStatus
      entitlementEstablished := d.entitlementEstablished
      reason := none
      announcementId := d.announcement.map (·.announcementId)
      announcementSha256 := d.announcement.map (·.sha256) }
  else
    { s with
      reason := d.reason
      attributionStatus :=
        if d.attributionStatus = .unresolved ∨ s.attributionStatus = .unresolved then .unresolved
        else s.attributionStatus
      entitlementEstablished :=
        if d.entitlementEstablished.isSome then d.entitlementEstablished
        else s.entitlementEstablished }

/-- The pass after a decision. -/
def Pass.decided (p : Pass) (g : List Received) (rest : List (List Received)) (d : Decision) :
    Pass :=
  { p with
    todo := rest
    statuses := (idsOf g).foldl (fun t id => modify t id (updated d)) p.statuses
    consumed := p.consumed ++
      (if settled d.attributionStatus then
        d.announcement.toList.map fun a => ((g.head?.map (·.symbol)).getD "", a.announcementId)
      else []) }

/-- A status whose deadline has passed is unresolved. -/
def escalated (now : Instant) (s : DividendStatus) : DividendStatus :=
  if !settled s.attributionStatus && s.escalationDeadline.any (· ≤ now) then
    { s with attributionStatus := .unresolved }
  else s

/-! ### The machine -/

/-- That a reversal took back an original: each activity of the original with that of the
reversal. -/
structure Mirrored where
  reversal : List String
  original : List String
  pairs : List (String × String)
  deriving DecidableEq

/-- The tables, the pass that is under way, and what was taken back so far (which no table says). -/
structure World where
  store : DividendStore := {}
  pass : Option Pass := none
  mirrored : List Mirrored := []

inductive Action
  | recorded (raw : CashActivity) (withheld : Option DecimalText) (now : Instant)
  | begins (now : Instant) (representation : Representation) (deadlineOf : String → Instant)
  | next (e : Evidence)
  | closes
  | stops

/-- What is recorded of a reversal that took back an original. -/
def Pass.mirroring (p : Pass) (g : List Received) : List Mirrored :=
  if isReversal g then
    (p.matched g).toList.map fun one =>
      { reversal := idsOf g
        original := idsOf one.1
        pairs := (mirrorPairs (g.map Received.member) (one.1.map Received.member)).getD [] }
  else []

/-- The pass takes up a group. -/
def World.takesUp (newYork : Instant → LocalTime) (w : World) (p : Pass) (g : List Received)
    (rest : List (List Received)) (e : Evidence) : World :=
  if p.skips g then { w with pass := some { p with todo := rest } }
  else
    match p.decision newYork g e with
    | .error _ => { w with pass := none }
    | .ok d =>
        let p' := p.decided g rest d
        if settled d.attributionStatus then
          match commit d.rows p'.statuses (idsOf g) w.store with
          | .error _ => { w with pass := none }
          | .ok store => ⟨store, some p', w.mirrored ++ p.mirroring g⟩
        else { w with pass := some p' }

/-- The pass writes the status of an open activity. -/
def World.writes (w : World) (p : Pass) (id : String) (rest : List String) : World :=
  let statuses := modify p.statuses id (escalated p.now)
  let p' := { p with statuses, closing := rest }
  if settledIn statuses id then { w with pass := some p' }
  else
    { w with
      pass := some p'
      store := { w.store with statuses := writeStatuses statuses [id] w.store.statuses } }

def World.step (newYork : Instant → LocalTime) (w : World) : Action → Option World
  | .recorded raw withheld now => some { w with store := record raw withheld now w.store }
  | .begins now representation deadlineOf =>
      match w.pass with
      | some _ => none
      | none => some { w with pass := Pass.begin w.store now representation deadlineOf }
  | .next e =>
      match w.pass with
      | some p =>
          match p.todo with
          | g :: rest => some (w.takesUp newYork p g rest e)
          | [] => none
      | none => none
  | .closes =>
      match w.pass with
      | some p =>
          match p.todo, p.closing with
          | [], id :: rest => some (w.writes p id rest)
          | _, _ => none
      | none => none
  | .stops => some { w with pass := none }

/-- The machine of passes and arriving activities. -/
def passes (newYork : Instant → LocalTime) : Machine World Action := ⟨World.step newYork⟩

/-! ### What is claimed of every run -/

/-- What a group was given of a holder. -/
def given (rows : List AttributionRow) (g : List Received) (holder : String) : ℚ :=
  (g.map fun r => amountOf rows r.activityId holder).sum

/-- The activities that take back activities of a group. -/
def takers (mirrored : List Mirrored) (g : List Received) : List String :=
  mirrored.flatMap fun m => (m.pairs.filter (·.1 ∈ idsOf g)).map Prod.snd

/-- What the activities that take back a group were given of a holder. -/
def takenBack (rows : List AttributionRow) (mirrored : List Mirrored) (g : List Received)
    (holder : String) : ℚ :=
  ((takers mirrored g).map fun id => amountOf rows id holder).sum

/-- The reversals that take back something of a group. -/
def reversalsOf (mirrored : List Mirrored) (g : List Received) : List Mirrored :=
  mirrored.filter fun m => g.any fun r => r.activityId ∈ m.original

/-- **No attributed group is taken back twice**, and what it was given of each holder, together with
what takes it back, is what it was given or nothing. -/
def OnceReversed (w : World) : Prop :=
  ∀ g ∈ groups w.store.receipts.rows, isReversal g = false →
    (∀ r ∈ g, settledIn w.store.statuses r.activityId = true) →
      (reversalsOf w.mirrored g).length ≤ 1 ∧
        ∀ holder,
          given w.store.rows.rows g holder + takenBack w.store.rows.rows w.mirrored g holder =
              given w.store.rows.rows g holder ∨
            given w.store.rows.rows g holder + takenBack w.store.rows.rows w.mirrored g holder = 0

/-- An attributed dividend of the same symbol whose activities the reversal has, turned round. -/
def Answers (w : World) (reversal original : List Received) : Prop :=
  original.head?.map (·.symbol) = reversal.head?.map (·.symbol) ∧ isReversal original = false ∧
    (∀ r ∈ original, settledIn w.store.statuses r.activityId = true) ∧
    Opposite (reversal.map Received.member) (original.map Received.member)

instance (w : World) (reversal original : List Received) : Decidable (Answers w reversal original) :=
  inferInstanceAs (Decidable (_ ∧ _ ∧ _ ∧ _))

/-- Some of the group was taken back before. -/
def World.tookBack (w : World) (g : List Received) : Prop :=
  ∃ m ∈ w.mirrored, ∃ r ∈ g, r.activityId ∈ m.original

instance (w : World) (g : List Received) : Decidable (w.tookBack g) :=
  inferInstanceAs (Decidable (∃ m ∈ w.mirrored, ∃ r ∈ g, r.activityId ∈ m.original))

/-- A dividend that was taken back before and answers the reversal is not the only one that does. -/
def NotAlone (w : World) (receipts g : List Received) : Prop :=
  ∀ original ∈ groups receipts, Answers w g original → w.tookBack original →
    ∃ other ∈ groups receipts, other ≠ original ∧ Answers w g other

instance (w : World) (receipts g : List Received) : Decidable (NotAlone w receipts g) :=
  inferInstanceAs (Decidable (∀ original ∈ groups receipts, Answers w g original →
    w.tookBack original → ∃ other ∈ groups receipts, other ≠ original ∧ Answers w g other))

/-- The step takes up no reversal that only a dividend answers which was taken back before. -/
def Unrepeated (w : World) : Action → Prop
  | .next _ => ∀ p ∈ w.pass, ∀ g ∈ p.todo.head?, isReversal g = true → p.skips g = false →
      NotAlone w p.receipts g
  | _ => True

instance (w : World) (a : Action) : Decidable (Unrepeated w a) :=
  match a with
  | .next _ => inferInstanceAs (Decidable (∀ p ∈ w.pass, ∀ g ∈ p.todo.head?,
      isReversal g = true → p.skips g = false → NotAlone w p.receipts g))
  | .recorded .. | .begins .. | .closes | .stops => inferInstanceAs (Decidable True)

/-! ### Statuses after a write -/

theorem get?_modify_self {t : Table DividendStatus} {id : String}
    {f : DividendStatus → DividendStatus} (hf : ∀ s, s.activityId = id → (f s).activityId = id) :
    (modify t id f).get? id = (t.get? id).map f := by
  unfold modify
  cases hs : t.get? id with
  | none => exact hs
  | some s =>
      obtain ⟨hmem, hid⟩ := Table.get?_eq_some_iff.1 hs
      have hput := Table.get?_put_self (r := f s) hmem ⟨hid.trans (hf s hid).symm, rfl⟩
      rwa [show Record.recordId (f s) = id from hf s hid] at hput

theorem get?_modify_of_ne {t : Table DividendStatus} {id id' : String}
    {f : DividendStatus → DividendStatus} (hf : ∀ s, s.activityId = id → (f s).activityId = id)
    (hne : id' ≠ id) : (modify t id f).get? id' = t.get? id' := by
  unfold modify
  cases hs : t.get? id with
  | none => rfl
  | some s =>
      refine Table.get?_put_of_ne ?_
      rwa [show Record.recordId (f s) = id from hf s (Table.get?_eq_some_iff.1 hs).2]

theorem get?_foldl_modify {f : String → DividendStatus → DividendStatus}
    (hf : ∀ id s, s.activityId = id → (f id s).activityId = id) :
    ∀ {ids : List String}, ids.Nodup → ∀ (t : Table DividendStatus) (id : String),
      (ids.foldl (fun t i => modify t i (f i)) t).get? id =
        if id ∈ ids then (t.get? id).map (f id) else t.get? id := by
  intro ids
  induction ids with
  | nil =>
      intro _ t id
      simp
  | cons i ids ih =>
      intro hnodup t id
      rw [List.nodup_cons] at hnodup
      rw [List.foldl_cons, ih hnodup.2]
      by_cases hid : id = i
      · rw [hid, if_neg hnodup.1, if_pos List.mem_cons_self, get?_modify_self (hf i)]
      · rw [get?_modify_of_ne (hf i) hid]
        simp [hid]

theorem get?_writeStatuses {now : Table DividendStatus} {ids : List String} (h : ids.Nodup)
    (t : Table DividendStatus) (id : String) :
    (writeStatuses now ids t).get? id =
      if id ∈ ids then (t.get? id).map fun s => (now.get? id).getD s else t.get? id := by
  refine get?_foldl_modify (f := fun id s => (now.get? id).getD s) (fun id s hs => ?_) h t id
  cases hnow : now.get? id with
  | none => exact hs
  | some s' => exact (Table.get?_eq_some_iff.1 hnow).2

/-- What a status does not say is not settled. -/
theorem settledIn_of_get?_eq {t u : Table DividendStatus} {id : String}
    (h : t.get? id = u.get? id) : settledIn t id = settledIn u id := by
  unfold settledIn
  rw [h]

theorem updated_activityId (d : Decision) (s : DividendStatus) :
    (updated d s).activityId = s.activityId := by
  unfold updated
  split <;> rfl

/-- The status of an open activity is settled by a settled decision, and by no other. -/
theorem settled_updated {d : Decision} {s : DividendStatus}
    (h : settled s.attributionStatus = false) :
    settled (updated d s).attributionStatus = settled d.attributionStatus := by
  unfold updated
  by_cases hd : settled d.attributionStatus = true
  · rw [if_pos hd]
  · rw [if_neg hd]
    by_cases hu : d.attributionStatus = .unresolved ∨ s.attributionStatus = .unresolved
    · simp only [if_pos hu]
      rw [Bool.eq_false_iff.2 hd]
      rfl
    · simp only [if_neg hu]
      rw [h, Bool.eq_false_iff.2 hd]

theorem settled_escalated (now : Instant) (s : DividendStatus) :
    settled (escalated now s).attributionStatus = settled s.attributionStatus := by
  unfold escalated
  split
  · rename_i h
    simp only [Bool.and_eq_true, Bool.not_eq_true'] at h
    rw [h.1]
    rfl
  · rfl

/-! ### What a commit does -/

/-- A group became settled, and was given rows. -/
structure Settles (s s' : DividendStore) (g : List Received) (rows : List AttributionRow) :
    Prop where
  receipts : s'.receipts = s.receipts
  rows : s'.rows.rows = s.rows.rows ++ rows
  settled : ∀ id, settledIn s'.statuses id = true ↔ settledIn s.statuses id = true ∨ id ∈ idsOf g
  kept : ∀ id, (s.statuses.get? id).isSome = true → (s'.statuses.get? id).isSome = true

theorem writeRows_ok {rows : List AttributionRow} :
    ∀ {t u : Table AttributionRow}, writeRows rows t = .ok u → u.rows = t.rows ++ rows := by
  induction rows with
  | nil =>
      intro t u h
      cases h
      exact (List.append_nil _).symm
  | cons row rows ih =>
      intro t u h
      obtain ⟨t', ht', h⟩ := except_bind_eq_ok.1 h
      obtain ⟨hadmits, rfl⟩ := Quarantine.insertRow_eq_ok_iff.1 ht'
      rw [ih h, Table.rows_createOnce hadmits, List.append_assoc, List.singleton_append]

/-- A commit writes the rows, and the statuses as the pass has them. -/
theorem commit_ok {rows : List AttributionRow} {now : Table DividendStatus} {g : List Received}
    {s s' : DividendStore} (h : commit rows now (idsOf g) s = .ok s') (hnodup : (idsOf g).Nodup)
    (hnow : ∀ id ∈ idsOf g, settledIn now id = true)
    (hold : ∀ id ∈ idsOf g, (s.statuses.get? id).isSome = true) : Settles s s' g rows := by
  obtain ⟨u, hu, h⟩ := except_bind_eq_ok.1 h
  cases h
  refine ⟨rfl, writeRows_ok hu, fun id => ?_, fun id hid => ?_⟩
  · by_cases hin : id ∈ idsOf g
    · obtain ⟨x, hx⟩ := Option.isSome_iff_exists.1 (hold id hin)
      have hset := hnow id hin
      unfold settledIn at hset ⊢
      rw [get?_writeStatuses hnodup, if_pos hin, hx]
      cases hy : now.get? id with
      | none => simp [hy] at hset
      | some y =>
          rw [hy] at hset
          simpa [hin] using hset
    · have hsame : (writeStatuses now (idsOf g) s.statuses).get? id = s.statuses.get? id := by
        rw [get?_writeStatuses hnodup, if_neg hin]
      rw [settledIn_of_get?_eq hsame]
      simp [hin]
  · rw [show ({ s with rows := u, statuses := writeStatuses now (idsOf g) s.statuses } :
        DividendStore).statuses = writeStatuses now (idsOf g) s.statuses from rfl,
      get?_writeStatuses hnodup]
    split
    · rw [Option.isSome_map]
      exact hid
    · exact hid

/-! ### What a decision rests on -/

theorem mem_idsOf {g : List Received} {id : String} :
    id ∈ idsOf g ↔ ∃ r ∈ g, r.activityId = id := by
  simp [idsOf]

theorem nodup_receipts (t : Table Received) : t.rows.Nodup :=
  t.keyed.imp fun {_ _} hab he => hab.1 (congrArg Record.recordId he)

theorem eq_of_activityId {t : Table Received} {r r' : Received} (hr : r ∈ t.rows)
    (hr' : r' ∈ t.rows) (h : r.activityId = r'.activityId) : r = r' :=
  Table.eq_of_recordId hr hr' h

theorem nodup_idsOf {t : Table Received} {g : List Received} (hsub : g ⊆ t.rows) (h : g.Nodup) :
    (idsOf g).Nodup :=
  h.map_on fun _ hr _ hr' he => eq_of_activityId (hsub hr) (hsub hr') he

theorem isReversal_eq {receipts g : List Received} (hg : g ∈ groups receipts) {r : Received}
    (hr : r ∈ g) : isReversal g = r.reversal := by
  cases g with
  | nil => cases hr
  | cons first rest =>
      have hkey := groupKey_eq_of_mem hg (List.mem_cons_self (a := first)) hr
      exact congrArg (fun k => k.2.2) hkey

theorem openIds_of_not_skips {p : Pass} {g : List Received} (h : p.skips g = false) :
    ∀ r ∈ g, r.activityId ∈ p.openIds := by
  intro r hr
  simp only [Pass.skips, Bool.or_eq_false_iff, Bool.not_eq_false', List.all_eq_true] at h
  simpa using h.1 r hr

/-- The originals that a reversal matches: of its symbol, attributed, no reversals, and mirrored. -/
theorem mem_originals {p : Pass} {symbol : String} {members : List Member} {g : List Received}
    {mirrored : List AttributionRow} (h : (g, mirrored) ∈ p.originals symbol members) :
    g ∈ groups p.receipts ∧ g.head?.map (·.symbol) = some symbol ∧ isReversal g = false ∧
      (∀ r ∈ g, settledIn p.statuses r.activityId = true) ∧
      mirror (p.rows.filter (·.activityId ∈ idsOf g)) members (g.map Received.member) =
        some mirrored := by
  obtain ⟨g', hg', h⟩ := List.mem_filterMap.1 h
  cases g' with
  | nil => cases h
  | cons first rest =>
      dsimp only at h
      split at h
      · cases h
      · rename_i hfirst
        split at h
        · rename_i hall
          obtain ⟨rows, hrows, he⟩ := Option.map_eq_some_iff.1 h
          cases he
          obtain ⟨hsymbol, hforward⟩ := not_or.1 hfirst
          refine ⟨hg', ?_, Bool.eq_false_iff.2 hforward, fun r hr => List.all_eq_true.1 hall r hr,
            hrows⟩
          exact congrArg some (not_not.1 hsymbol)
        · cases h

theorem mem_originals_of_answers {w : World} {p : Pass} {first : Received} {rest g : List Received}
    (hagree : ∀ id, settledIn p.statuses id = settledIn w.store.statuses id)
    (hg : g ∈ groups p.receipts) (h : Answers w (first :: rest) g) :
    ∃ mirrored, (g, mirrored) ∈ p.originals first.symbol ((first :: rest).map Received.member) := by
  obtain ⟨hsymbol, hforward, hsettled, hopposite⟩ := h
  obtain ⟨pairs, hpairs⟩ := mirrorPairs_isSome hopposite
  have hlen := hopposite.length_eq
  refine ⟨mirroredRows pairs (p.rows.filter (·.activityId ∈ idsOf g)),
    List.mem_filterMap.2 ⟨g, hg, ?_⟩⟩
  cases g with
  | nil => cases hsymbol
  | cons head tail =>
      have hhead : head.symbol = first.symbol := by simpa using hsymbol
      have hone : head.reversal = false := by simpa [isReversal] using hforward
      have hall : (head :: tail).all (fun r => settledIn p.statuses r.activityId) = true :=
        List.all_eq_true.2 fun r hr => (hagree _).trans (hsettled r hr)
      have hmirror : mirror (p.rows.filter (·.activityId ∈ idsOf (head :: tail)))
          ((first :: rest).map Received.member) ((head :: tail).map Received.member) = some _ :=
        mirror_eq_some_iff.2 ⟨hlen, pairs, hpairs, rfl⟩
      simp only [hhead, hone, hall, hmirror, ne_eq, not_true_eq_false, Bool.false_eq_true,
        or_self, if_false, if_true, Option.map_some]

/-- **The one original** that a reversal matches: no other dividend answers it. -/
theorem matched_only {p : Pass} {g : List Received} {one : List Received × List AttributionRow}
    (h : p.matched g = some one) :
    ∃ first rest, g = first :: rest ∧
      p.originals first.symbol (g.map Received.member) = [one] := by
  cases g with
  | nil => cases h
  | cons first rest =>
      refine ⟨first, rest, rfl, ?_⟩
      simp only [Pass.matched] at h
      split at h
      · rename_i x hx
        cases h
        exact hx
      · cases h

theorem matched_mem {p : Pass} {g : List Received} {one : List Received × List AttributionRow}
    (h : p.matched g = some one) :
    ∃ symbol, one ∈ p.originals symbol (g.map Received.member) := by
  obtain ⟨first, rest, -, honly⟩ := matched_only h
  exact ⟨first.symbol, honly ▸ List.mem_singleton_self _⟩

/-- A reversal that is settled took back an original, and is given its rows mirrored. -/
theorem reverse_settled {p : Pass} {g : List Received}
    (h : settled (p.reverse g).attributionStatus = true) :
    ∃ original mirrored,
      p.matched g = some (original, mirrored) ∧ (p.reverse g).rows = mirrored := by
  unfold Pass.reverse at h ⊢
  split at h
  · rename_i first rest mirrored hm
    refine ⟨first :: rest, mirrored, hm, ?_⟩
    split at h
    · rfl
    · cases h
  · cases h

/-! ### Invariants -/

/-- What a pass knows is still so. -/
structure PassSound (s : DividendStore) (p : Pass) : Prop where
  known : p.receipts ⊆ s.receipts.rows
  nodup : p.receipts.Nodup
  trackedHere : ∀ id ∈ p.openIds, (p.statuses.get? id).isSome = true
  trackedThere : ∀ id ∈ p.openIds, (s.statuses.get? id).isSome = true
  agree : ∀ id, settledIn p.statuses id = settledIn s.statuses id
  within : ∀ id, settledIn s.statuses id = true → ∃ r ∈ p.receipts, r.activityId = id
  /-- The rows of what was attributed before the pass. -/
  shown : ∀ id ∉ p.openIds, ∀ holder, amountOf p.rows id holder = amountOf s.rows.rows id holder
  hidden : ∀ id ∈ p.openIds, ∀ holder, amountOf p.rows id holder = 0
  /-- What this pass attributed, it attributed as a whole group. -/
  whole : ∀ g ∈ groups p.receipts, ∀ r ∈ g, r.activityId ∈ p.openIds →
    settledIn s.statuses r.activityId = true → ∀ r' ∈ g, r'.activityId ∈ p.openIds
  todo : p.todo <:+ groups p.receipts
  ahead : ∀ g ∈ p.todo, ∀ r ∈ g, r.activityId ∈ p.openIds →
    settledIn s.statuses r.activityId = false

/-- What holds between any two steps. -/
structure Sound (w : World) : Prop where
  known : ∀ id, settledIn w.store.statuses id = true →
    ∃ r ∈ w.store.receipts.rows, r.activityId = id
  /-- Nothing but a reversal is attributed without an income of its key. -/
  led : ∀ r ∈ w.store.receipts.rows, settledIn w.store.statuses r.activityId = true →
    r.reversal = false →
      ∃ a ∈ w.store.receipts.rows, a.isIncome = true ∧ a.groupKey = r.groupKey ∧
        settledIn w.store.statuses a.activityId = true
  attributed : ∀ row ∈ w.store.rows.rows, settledIn w.store.statuses row.activityId = true
  originals : ∀ m ∈ w.mirrored, ∀ id ∈ m.original, settledIn w.store.statuses id = true ∧
    ∃ r ∈ w.store.receipts.rows, r.activityId = id ∧ r.reversal = false
  /-- What is taken back of a group is all of it that is attributed. -/
  whole : ∀ m ∈ w.mirrored, ∀ g ∈ groups w.store.receipts.rows, ∀ x ∈ g, ∀ y ∈ g,
    x.activityId ∈ m.original → settledIn w.store.statuses y.activityId = true →
      y.activityId ∈ m.original
  paired : ∀ m ∈ w.mirrored, (m.pairs.map Prod.fst).Perm m.original
  nodup : ∀ m ∈ w.mirrored, m.original.Nodup
  answered : ∀ m ∈ w.mirrored, ∀ x ∈ m.pairs, settledIn w.store.statuses x.2 = true
  /-- What takes back an original was given the opposite of it, or nothing at all. -/
  undone : ∀ m ∈ w.mirrored,
    (∀ x ∈ m.pairs, ∀ holder, amountOf w.store.rows.rows x.2 holder =
      -amountOf w.store.rows.rows x.1 holder) ∨
    ∀ x ∈ m.pairs, ∀ holder, amountOf w.store.rows.rows x.2 holder = 0
  apart : w.mirrored.Pairwise fun m m' => m.original.Disjoint m'.original
  pass : ∀ p, w.pass = some p → PassSound w.store p

theorem Sound.initial : Sound {} where
  known id h := by cases h
  led r hr := by cases hr
  attributed row hrow := by cases hrow
  originals m hm := by cases hm
  whole m hm := by cases hm
  paired m hm := by cases hm
  nodup m hm := by cases hm
  answered m hm := by cases hm
  undone m hm := by cases hm
  apart := .nil
  pass p hp := by cases hp

theorem Sound.dropped {w : World} (h : Sound w) : Sound { w with pass := none } :=
  { h with pass := fun p hp => by cases hp }

theorem Sound.withPass {w : World} (h : Sound w) {p : Pass} (hp : PassSound w.store p) :
    Sound { w with pass := some p } :=
  { h with
    pass := fun q hq => by
      cases hq
      exact hp }

/-! ### What was claimed, from the invariant -/

theorem length_le_one_of_pairwise {α : Type} {R : α → α → Prop} {l : List α} (h : l.Pairwise R)
    (hno : ∀ a ∈ l, ∀ b ∈ l, ¬ R a b) : l.length ≤ 1 := by
  cases l with
  | nil => simp
  | cons a l =>
      cases l with
      | nil => simp
      | cons b l =>
          have hab := List.rel_of_pairwise_cons h (List.mem_cons_self (a := b))
          exact absurd hab (hno a (by simp) b (by simp))

theorem mem_reversalsOf {mirrored : List Mirrored} {g : List Received} {m : Mirrored} :
    m ∈ reversalsOf mirrored g ↔ m ∈ mirrored ∧ ∃ r ∈ g, r.activityId ∈ m.original := by
  simp [reversalsOf]

theorem takers_eq {mirrored : List Mirrored} {g : List Received}
    (h : ∀ m ∈ mirrored, (m.pairs.map Prod.fst).Perm m.original) :
    takers mirrored g = takers (reversalsOf mirrored g) g := by
  induction mirrored with
  | nil => rfl
  | cons m mirrored ih =>
      have hrest := ih fun m' hm' => h m' (List.mem_cons_of_mem m hm')
      by_cases hm : (g.any fun r => r.activityId ∈ m.original) = true
      · have hcons : reversalsOf (m :: mirrored) g = m :: reversalsOf mirrored g :=
          List.filter_cons_of_pos hm
        rw [hcons, takers, takers, List.flatMap_cons, List.flatMap_cons]
        exact congrArg _ hrest
      · have hcons : reversalsOf (m :: mirrored) g = reversalsOf mirrored g :=
          List.filter_cons_of_neg hm
        rw [hcons, takers, List.flatMap_cons]
        have hnone : m.pairs.filter (·.1 ∈ idsOf g) = [] := by
          rw [List.filter_eq_nil_iff]
          intro x hx hin
          obtain ⟨r, hr, hid⟩ := mem_idsOf.1 (of_decide_eq_true hin)
          refine hm (List.any_eq_true.2 ⟨r, hr, decide_eq_true ?_⟩)
          rw [hid]
          exact (h m List.mem_cons_self).subset (List.mem_map_of_mem hx)
        rw [hnone]
        exact hrest

theorem sum_snd_eq_neg {pairs : List (String × String)} {f : String → ℚ}
    (h : ∀ x ∈ pairs, f x.2 = -f x.1) :
    ((pairs.map Prod.snd).map f).sum = -((pairs.map Prod.fst).map f).sum := by
  induction pairs with
  | nil => simp
  | cons x pairs ih =>
      simp only [List.map_cons, List.sum_cons]
      rw [h x List.mem_cons_self, ih fun y hy => h y (List.mem_cons_of_mem x hy)]
      ring

/-- **The invariant implies the claim.** -/
theorem Sound.onceReversed {w : World} (h : Sound w) : OnceReversed w := by
  intro g hg hforward hall
  have hone : (reversalsOf w.mirrored g).length ≤ 1 := by
    refine length_le_one_of_pairwise (h.apart.filter _) fun m hm m' hm' hdisjoint => ?_
    obtain ⟨hin, x, hx, hxm⟩ := mem_reversalsOf.1 hm
    obtain ⟨-, x', hx', hxm'⟩ := mem_reversalsOf.1 hm'
    exact hdisjoint (h.whole m hin g hg x hx x' hx' hxm (hall x' hx')) hxm'
  refine ⟨hone, fun holder => ?_⟩
  have htakers := takers_eq (g := g) h.paired
  cases hm : reversalsOf w.mirrored g with
  | nil =>
      left
      rw [takenBack, htakers, hm]
      exact add_zero _
  | cons m rest =>
      rw [hm] at hone
      have hrest : rest = [] := by simpa using hone
      obtain ⟨hin, x, hx, hxm⟩ := mem_reversalsOf.1 (hm ▸ List.mem_cons_self : m ∈ reversalsOf _ g)
      have hsub : ∀ id ∈ idsOf g, id ∈ m.original := by
        intro id hid
        obtain ⟨y, hy, rfl⟩ := mem_idsOf.1 hid
        exact h.whole m hin g hg x hx y hy hxm (hall y hy)
      have hpairs : takers w.mirrored g = (m.pairs.filter (·.1 ∈ idsOf g)).map Prod.snd := by
        rw [htakers, hm, hrest]
        simp [takers]
      -- The originals of these pairs are exactly the activities of the group.
      have hfst : ((m.pairs.filter (·.1 ∈ idsOf g)).map Prod.fst).Perm (idsOf g) := by
        have hnodup : (m.pairs.map Prod.fst).Nodup := (h.paired m hin).nodup_iff.2 (h.nodup m hin)
        refine (List.perm_ext_iff_of_nodup ?_ ?_).2 fun id => ?_
        · exact hnodup.sublist (List.filter_sublist.map Prod.fst)
        · exact nodup_idsOf (fun r hr => mem_of_mem_groups hg hr)
            ((List.nodup_flatten.1 (nodup_flatten_groups (nodup_receipts _))).1 g hg)
        · constructor
          · intro hid
            obtain ⟨y, hy, rfl⟩ := List.mem_map.1 hid
            simpa using (List.mem_filter.1 hy).2
          · intro hid
            obtain ⟨y, hy, rfl⟩ := List.mem_map.1 ((h.paired m hin).symm.subset (hsub id hid))
            exact List.mem_map_of_mem (List.mem_filter.2 ⟨hy, by simpa using hid⟩)
      have hgiven : given w.store.rows.rows g holder =
          (((m.pairs.filter (·.1 ∈ idsOf g)).map Prod.fst).map
            fun id => amountOf w.store.rows.rows id holder).sum := by
        rw [(hfst.map _).sum_eq, given, idsOf, List.map_map]
        rfl
      rcases h.undone m hin with hneg | hnone
      · right
        rw [takenBack, hpairs, hgiven, sum_snd_eq_neg
          (f := fun id => amountOf w.store.rows.rows id holder)]
        · ring
        · exact fun y hy => hneg y (List.mem_of_mem_filter hy) holder
      · left
        rw [takenBack, hpairs, List.sum_eq_zero, add_zero]
        intro q hq
        obtain ⟨id, hid, rfl⟩ := List.mem_map.1 hq
        obtain ⟨y, hy, rfl⟩ := List.mem_map.1 hid
        exact hnone y (List.mem_of_mem_filter hy) holder

/-! ### Taking up a group -/

/-- A group that a pass takes up: open before the pass, and not attributed since. -/
structure TakenUp (s : DividendStore) (p : Pass) (g : List Received) : Prop where
  group : g ∈ groups p.receipts
  openIds : ∀ id ∈ idsOf g, id ∈ p.openIds
  unsettled : ∀ id ∈ idsOf g, settledIn s.statuses id = false

theorem PassSound.takenUp {s : DividendStore} {p : Pass} (h : PassSound s p) {g : List Received}
    {rest : List (List Received)} (htodo : p.todo = g :: rest) (hskips : p.skips g = false) :
    TakenUp s p g := by
  have hg : g ∈ p.todo := htodo ▸ List.mem_cons_self
  refine ⟨h.todo.subset hg, fun id hid => ?_, fun id hid => ?_⟩
  · obtain ⟨r, hr, rfl⟩ := mem_idsOf.1 hid
    exact openIds_of_not_skips hskips r hr
  · obtain ⟨r, hr, rfl⟩ := mem_idsOf.1 hid
    exact h.ahead g hg r hr (openIds_of_not_skips hskips r hr)

theorem PassSound.nodup_idsOf {s : DividendStore} {p : Pass} (h : PassSound s p) {g : List Received}
    (hg : g ∈ groups p.receipts) : (idsOf g).Nodup :=
  Dividends.nodup_idsOf (t := s.receipts) (fun _ hr => h.known (mem_of_mem_groups hg hr))
    ((List.nodup_flatten.1 (nodup_flatten_groups h.nodup)).1 g hg)

theorem PassSound.eq_of_activityId {s : DividendStore} {p : Pass} (h : PassSound s p)
    {r r' : Received} (hr : r ∈ s.receipts.rows) (hr' : r' ∈ p.receipts)
    (he : r.activityId = r'.activityId) : r = r' :=
  Dividends.eq_of_activityId hr (h.known hr') he

theorem PassSound.mem_receipts {s : DividendStore} {p : Pass} (h : PassSound s p) {r : Received}
    (hr : r ∈ s.receipts.rows) (hset : settledIn s.statuses r.activityId = true) :
    r ∈ p.receipts := by
  obtain ⟨r', hr', hid⟩ := h.within _ hset
  rwa [h.eq_of_activityId hr hr' hid.symm]

theorem get?_decided {p : Pass} {g : List Received} (hnodup : (idsOf g).Nodup)
    (rest : List (List Received)) (d : Decision) (id : String) :
    (p.decided g rest d).statuses.get? id =
      if id ∈ idsOf g then (p.statuses.get? id).map (updated d) else p.statuses.get? id :=
  get?_foldl_modify (f := fun _ => updated d)
    (fun _ s hs => (updated_activityId d s).trans hs) hnodup p.statuses id

/-- A decision settles the activities of the group, or none. -/
theorem settledIn_decided {s : DividendStore} {p : Pass} (h : PassSound s p) {g : List Received}
    (hg : TakenUp s p g) (rest : List (List Received)) (d : Decision) (id : String) :
    settledIn (p.decided g rest d).statuses id =
      if id ∈ idsOf g then settled d.attributionStatus else settledIn p.statuses id := by
  have hget := get?_decided (h.nodup_idsOf hg.group) (p := p) rest d id
  by_cases hid : id ∈ idsOf g
  · rw [if_pos hid] at hget ⊢
    obtain ⟨x, hx⟩ := Option.isSome_iff_exists.1 (h.trackedHere id (hg.openIds id hid))
    have hopen : settled x.attributionStatus = false := by
      have hset := (h.agree id).trans (hg.unsettled id hid)
      simpa [settledIn, hx] using hset
    rw [settledIn, hget, hx]
    exact settled_updated hopen
  · rw [if_neg hid] at hget ⊢
    exact settledIn_of_get?_eq hget

theorem isSome_decided {s : DividendStore} {p : Pass} (h : PassSound s p) {g : List Received}
    (hg : g ∈ groups p.receipts) (rest : List (List Received)) (d : Decision) {id : String}
    (hid : id ∈ p.openIds) : ((p.decided g rest d).statuses.get? id).isSome = true := by
  rw [get?_decided (h.nodup_idsOf hg)]
  split
  · rw [Option.isSome_map]
    exact h.trackedHere id hid
  · exact h.trackedHere id hid

theorem PassSound.suffix {s : DividendStore} {p : Pass} (h : PassSound s p) {g : List Received}
    {rest : List (List Received)} (htodo : p.todo = g :: rest) : rest <:+ groups p.receipts :=
  (List.suffix_cons g rest).trans (htodo ▸ h.todo)

theorem PassSound.skipped {s : DividendStore} {p : Pass} (h : PassSound s p) {g : List Received}
    {rest : List (List Received)} (htodo : p.todo = g :: rest) :
    PassSound s { p with todo := rest } :=
  { h with
    todo := h.suffix htodo
    ahead := fun g' hg' => h.ahead g' (htodo ▸ List.mem_cons_of_mem g hg') }

theorem PassSound.refused {s : DividendStore} {p : Pass} (h : PassSound s p) {g : List Received}
    {rest : List (List Received)} (htodo : p.todo = g :: rest) (hg : TakenUp s p g) {d : Decision}
    (hd : settled d.attributionStatus = false) : PassSound s (p.decided g rest d) :=
  { h with
    trackedHere := fun id hid => isSome_decided h hg.group rest d hid
    agree := by
      intro id
      rw [settledIn_decided h hg]
      split
      · rename_i hid
        rw [hd, hg.unsettled id hid]
      · exact h.agree id
    todo := h.suffix htodo
    ahead := fun g' hg' => h.ahead g' (htodo ▸ List.mem_cons_of_mem g hg') }

/-- Rows of a group do not count for other activities. -/
theorem amountOf_settles {s s' : DividendStore} {g : List Received} {rows : List AttributionRow}
    (h : Settles s s' g rows) (hrows : ∀ row ∈ rows, row.activityId ∈ idsOf g) {id : String}
    (hid : id ∉ idsOf g) (holder : String) :
    amountOf s'.rows.rows id holder = amountOf s.rows.rows id holder := by
  have hne : ∀ row ∈ rows, row.activityId ≠ id := fun row hrow he => hid (he ▸ hrows row hrow)
  rw [h.rows, amountOf_append, amountOf_eq_zero hne, add_zero]

theorem PassSound.settles {s s' : DividendStore} {p : Pass} (h : PassSound s p) {g : List Received}
    {rest : List (List Received)} (htodo : p.todo = g :: rest) (hg : TakenUp s p g) {d : Decision}
    (hd : settled d.attributionStatus = true) {rows : List AttributionRow}
    (hs : Settles s s' g rows) (hrows : ∀ row ∈ rows, row.activityId ∈ idsOf g) :
    PassSound s' (p.decided g rest d) where
  known := hs.receipts ▸ h.known
  nodup := h.nodup
  trackedHere id hid := isSome_decided h hg.group rest d hid
  trackedThere id hid := hs.kept id (h.trackedThere id hid)
  agree id := by
    rw [settledIn_decided h hg]
    by_cases hid : id ∈ idsOf g
    · rw [if_pos hid, hd]
      exact ((hs.settled id).2 (.inr hid)).symm
    · rw [if_neg hid, h.agree id, Bool.eq_iff_iff, hs.settled id]
      simp [hid]
  within id hid := by
    rcases (hs.settled id).1 hid with hold | hnew
    · exact h.within id hold
    · obtain ⟨r, hr, rfl⟩ := mem_idsOf.1 hnew
      exact ⟨r, mem_of_mem_groups hg.group hr, rfl⟩
  shown id hid holder := by
    rw [amountOf_settles hs hrows fun hin => hid (hg.openIds id hin)]
    exact h.shown id hid holder
  hidden := h.hidden
  whole g' hg' r hr hopen hset := by
    rcases (hs.settled _).1 hset with hold | hnew
    · exact h.whole g' hg' r hr hopen hold
    · obtain ⟨x, hx, hid⟩ := mem_idsOf.1 hnew
      have hxr : r = x := h.eq_of_activityId (h.known (mem_of_mem_groups hg' hr))
        (mem_of_mem_groups hg.group hx) hid.symm
      rw [eq_of_mem_groups h.nodup hg' hg.group hr (hxr ▸ hx)]
      exact fun r' hr' => hg.openIds _ (mem_idsOf.2 ⟨r', hr', rfl⟩)
  todo := h.suffix htodo
  ahead g' hg' r hr hopen := by
    have hin : g' ∈ p.todo := htodo ▸ List.mem_cons_of_mem g hg'
    refine Bool.eq_false_iff.2 fun hset => ?_
    rcases (hs.settled _).1 hset with hold | hnew
    · rw [h.ahead g' hin r hr hopen] at hold
      cases hold
    · -- No two groups of what is still to be taken up share an activity.
      obtain ⟨x, hx, hid⟩ := mem_idsOf.1 hnew
      have hxr : r = x := h.eq_of_activityId (h.known (mem_of_mem_groups (h.todo.subset hin) hr))
        (mem_of_mem_groups hg.group hx) hid.symm
      have hpair := ((List.nodup_flatten.1 (nodup_flatten_groups h.nodup)).2.sublist
        h.todo.sublist)
      rw [htodo] at hpair
      exact List.rel_of_pairwise_cons hpair hg' hx (hxr ▸ hr)

/-! ### Attributing a group -/

/-- **A group is attributed**: nothing was attributed of it before, and it is led by an income,
unless it is a reversal. -/
theorem Sound.settles {w : World} (h : Sound w) {p p' : Pass} (hp : PassSound w.store p)
    {g : List Received} (hg : TakenUp w.store p g) {s' : DividendStore} {rows : List AttributionRow}
    (hs : Settles w.store s' g rows) (hrows : ∀ row ∈ rows, row.activityId ∈ idsOf g)
    (hincome : isReversal g = false → ∃ a ∈ g, a.isIncome = true) (hp' : PassSound s' p') :
    Sound { store := s', pass := some p', mirrored := w.mirrored } := by
  have hmono : ∀ id, settledIn w.store.statuses id = true → settledIn s'.statuses id = true :=
    fun id hid => (hs.settled id).2 (.inl hid)
  have hnew : ∀ id, settledIn w.store.statuses id = true → id ∉ idsOf g := by
    intro id hset hid
    rw [hg.unsettled id hid] at hset
    cases hset
  -- A settled activity of the store that is not a reversal, and is of this group.
  have hmember : ∀ r ∈ w.store.receipts.rows, r.activityId ∈ idsOf g → r ∈ g := by
    intro r hr hid
    obtain ⟨x, hx, he⟩ := mem_idsOf.1 hid
    rwa [hp.eq_of_activityId hr (mem_of_mem_groups hg.group hx) he.symm]
  have hleads : ∀ r ∈ g, r.reversal = false →
      ∃ a ∈ g, a.isIncome = true ∧ a.groupKey = r.groupKey := by
    intro r hr hforward
    obtain ⟨a, ha, hi⟩ := hincome ((isReversal_eq hg.group hr).trans hforward)
    exact ⟨a, ha, hi, groupKey_eq_of_mem hg.group ha hr⟩
  have hstore : ∀ a ∈ g, a ∈ w.store.receipts.rows := fun a ha =>
    hp.known (mem_of_mem_groups hg.group ha)
  have hreceipts : s'.receipts = w.store.receipts := hs.receipts
  refine
    { known := fun id hid => ?_, led := fun r hr hset hforward => ?_
      attributed := fun row hrow => ?_
      originals := fun m hm id hid => ?_, whole := fun m hm gg hgg x hx y hy hxm hset => ?_
      paired := h.paired, nodup := h.nodup
      answered := fun m hm x hx => hmono _ (h.answered m hm x hx)
      undone := fun m hm => ?_, apart := h.apart
      pass := fun q hq => by
        cases hq
        exact hp' }
  · rw [hreceipts]
    rcases (hs.settled id).1 hid with hold | hin
    · exact h.known id hold
    · obtain ⟨r, hr, he⟩ := mem_idsOf.1 hin
      exact ⟨r, hstore r hr, he⟩
  · rw [hreceipts] at hr ⊢
    rcases (hs.settled _).1 hset with hold | hin
    · obtain ⟨a, ha, hi, hk, hseta⟩ := h.led r hr hold hforward
      exact ⟨a, ha, hi, hk, hmono _ hseta⟩
    · obtain ⟨a, ha, hi, hk⟩ := hleads r (hmember r hr hin) hforward
      exact ⟨a, hstore a ha, hi, hk, (hs.settled _).2 (.inr (mem_idsOf.2 ⟨a, ha, rfl⟩))⟩
  · rw [hs.rows] at hrow
    rcases List.mem_append.1 hrow with hold | hin
    · exact hmono _ (h.attributed row hold)
    · exact (hs.settled _).2 (.inr (hrows row hin))
  · obtain ⟨hset, r, hr, hrest⟩ := h.originals m hm id hid
    exact ⟨hmono _ hset, r, hreceipts ▸ hr, hrest⟩
  · dsimp only at hgg
    rw [hreceipts] at hgg
    rcases (hs.settled _).1 hset with hold | hin
    · exact h.whole m hm gg hgg x hx y hy hxm hold
    · -- What was taken back has an income that is settled, and the new group has another one.
      exfalso
      have hyr := mem_of_mem_groups hgg hy
      have hxr := mem_of_mem_groups hgg hx
      obtain ⟨hxset, x', hx', hid, hforward⟩ := h.originals m hm _ hxm
      have hxx : x' = x := eq_of_activityId hx' hxr hid
      rw [hxx] at hforward
      have hkey := groupKey_eq_of_mem hgg hx hy
      have hyforward : y.reversal = false := (congrArg (fun k => k.2.2) hkey).symm.trans hforward
      obtain ⟨b, hb, hbi, hbk⟩ := hleads y (hmember y hyr hin) hyforward
      obtain ⟨a, ha, hai, hak, haset⟩ := h.led x hxr hxset hforward
      rcases groups_cases hgg with ⟨z, -, rfl⟩ | ⟨c, hc⟩
      · rw [List.mem_singleton.1 hx, ← List.mem_singleton.1 hy] at hxset
        exact hnew _ hxset hin
      · have hac : a = c := hc.only a ha hai (hak.trans (hc.groupKey_eq hx))
        have hbc : b = c := hc.only b (hstore b hb) hbi (hbk.trans (hc.groupKey_eq hy))
        rw [hac, ← hbc] at haset
        exact hnew _ haset (mem_idsOf.2 ⟨b, hb, rfl⟩)
  · have hsame : ∀ x ∈ m.pairs, ∀ holder,
        amountOf s'.rows.rows x.1 holder = amountOf w.store.rows.rows x.1 holder ∧
          amountOf s'.rows.rows x.2 holder = amountOf w.store.rows.rows x.2 holder := by
      intro x hx holder
      have horiginal := (h.paired m hm).subset (List.mem_map_of_mem (f := Prod.fst) hx)
      exact ⟨amountOf_settles hs hrows (hnew _ (h.originals m hm _ horiginal).1) holder,
        amountOf_settles hs hrows (hnew _ (h.answered m hm x hx)) holder⟩
    refine (h.undone m hm).imp (fun hneg x hx holder => ?_) fun hnone x hx holder => ?_
    · rw [(hsame x hx holder).1, (hsame x hx holder).2]
      exact hneg x hx holder
    · rw [(hsame x hx holder).2]
      exact hnone x hx holder

/-- What is asked of a further reversal that took back a group. -/
structure TakesBack (w : World) (p : Pass) (m : Mirrored) (original : List Received) : Prop where
  group : original ∈ groups p.receipts
  forward : isReversal original = false
  ids : m.original = idsOf original
  settled : ∀ r ∈ original, settledIn w.store.statuses r.activityId = true
  paired : (m.pairs.map Prod.fst).Perm m.original
  answered : ∀ x ∈ m.pairs, settledIn w.store.statuses x.2 = true
  undone :
    (∀ x ∈ m.pairs, ∀ holder, amountOf w.store.rows.rows x.2 holder =
      -amountOf w.store.rows.rows x.1 holder) ∨
    ∀ x ∈ m.pairs, ∀ holder, amountOf w.store.rows.rows x.2 holder = 0
  fresh : ∀ m' ∈ w.mirrored, m'.original.Disjoint m.original

/-- **A group is taken back** that was not taken back before. -/
theorem Sound.takesBack {w : World} (h : Sound w) {p : Pass} (hp : w.pass = some p) {m : Mirrored}
    {original : List Received} (hm : TakesBack w p m original) :
    Sound { w with mirrored := w.mirrored ++ [m] } := by
  have hps := h.pass p hp
  have hcases : ∀ {P : Mirrored → Prop}, (∀ m' ∈ w.mirrored, P m') → P m →
      ∀ m' ∈ w.mirrored ++ [m], P m' := by
    intro P hold hnew m' hm'
    rcases List.mem_append.1 hm' with hin | hin
    · exact hold m' hin
    · rw [List.mem_singleton.1 hin]
      exact hnew
  refine
    { h with
      originals := hcases h.originals fun id hid => ?_
      whole := hcases h.whole fun g hg x hx y hy hxm hset => ?_
      paired := hcases h.paired hm.paired
      nodup := hcases h.nodup (hm.ids ▸ hps.nodup_idsOf hm.group)
      answered := hcases h.answered hm.answered
      undone := hcases h.undone hm.undone
      apart := List.pairwise_append.2
        ⟨h.apart, List.pairwise_singleton _ _, fun m' hm' m'' hin => ?_⟩ }
  · rw [hm.ids] at hid
    obtain ⟨r, hr, rfl⟩ := mem_idsOf.1 hid
    exact ⟨hm.settled r hr, r, hps.known (mem_of_mem_groups hm.group hr), rfl,
      (isReversal_eq hm.group hr).symm.trans hm.forward⟩
  · rw [hm.ids] at hxm ⊢
    obtain ⟨x', hx', hid⟩ := mem_idsOf.1 hxm
    have hxr := mem_of_mem_groups hg hx
    have hxx : x = x' := hps.eq_of_activityId hxr (mem_of_mem_groups hm.group hx') hid.symm
    rw [← hxx] at hx'
    have hxset := hm.settled x hx'
    have hforward := (isReversal_eq hm.group hx').symm.trans hm.forward
    obtain ⟨a, ha, hai, hak, haset⟩ := h.led x hxr hxset hforward
    -- All three are known to the pass, so they were in one group when it began.
    obtain ⟨g', hg', hxg', hyg'⟩ := exists_group_of_subset hps.nodup hps.known hg hx hy
      (hps.mem_receipts hxr hxset) (hps.mem_receipts (mem_of_mem_groups hg hy) hset)
      (hps.mem_receipts ha haset) hai hak
    rw [eq_of_mem_groups hps.nodup hm.group hg' hx' hxg']
    exact mem_idsOf.2 ⟨y, hyg', rfl⟩
  · rw [List.mem_singleton.1 hin]
    exact hm.fresh m' hm'

/-! ### The steps -/

theorem mirroredRows_activityId {pairs : List (String × String)} {rows : List AttributionRow}
    {row : AttributionRow} (h : row ∈ mirroredRows pairs rows) :
    row.activityId ∈ pairs.map Prod.snd := by
  obtain ⟨x, -, hx⟩ := List.mem_filterMap.1 h
  obtain ⟨id, hid, rfl⟩ := Option.map_eq_some_iff.1 hx
  exact List.mem_map_of_mem (f := Prod.snd) (mem_of_lookup_eq_some hid)

theorem amountOf_filter {rows : List AttributionRow} {ids : List String} {id : String}
    (h : id ∈ ids) (holder : String) :
    amountOf (rows.filter (·.activityId ∈ ids)) id holder = amountOf rows id holder := by
  unfold amountOf
  rw [List.filter_filter]
  refine congrArg (fun l : List AttributionRow => (l.map (·.amount)).sum)
    (List.filter_congr fun r _ => ?_)
  by_cases hr : r.activityId = id
  · simp [hr, h]
  · simp [hr]

theorem map_member_ids (g : List Received) :
    (g.map Received.member).map (·.activityId) = idsOf g := by
  rw [List.map_map]
  rfl

/-- **The original that a reversal matches was not taken back before**: only one dividend answers
it. -/
theorem fresh_of_matched {w : World} {p : Pass} (hps : PassSound w.store p) {g : List Received}
    {original : List Received} {mirrored : List AttributionRow}
    (hm : p.matched g = some (original, mirrored)) (hnot : NotAlone w p.receipts g) :
    ∀ m ∈ w.mirrored, m.original.Disjoint (idsOf original) := by
  intro m hmem id hid hin
  obtain ⟨first, rest, rfl, honly⟩ := matched_only hm
  have horiginal := honly ▸ List.mem_singleton_self (original, mirrored)
  obtain ⟨hgroup, hsymbol, hforward, hall, hmirror⟩ := mem_originals horiginal
  obtain ⟨hlen, pairs, hpairs, -⟩ := mirror_eq_some_iff.1 hmirror
  have hanswers : Answers w (first :: rest) original :=
    ⟨hsymbol, hforward, fun r hr => (hps.agree _).symm.trans (hall r hr),
      opposite_of_mirrorPairs hpairs hlen⟩
  obtain ⟨r, hr, rfl⟩ := mem_idsOf.1 hin
  obtain ⟨other, hother, hne, hotherAnswers⟩ :=
    hnot original hgroup hanswers ⟨m, hmem, r, hr, hid⟩
  -- the other dividend would be matched as well, and then none of them is
  obtain ⟨rows, hrows⟩ := mem_originals_of_answers hps.agree hother hotherAnswers
  rw [honly] at hrows
  exact hne (congrArg Prod.fst (List.mem_singleton.1 hrows))

/-- **A reversal that is committed** takes back its original. -/
theorem takesBack_of_commit {w : World} (h : Sound w) {p : Pass} (hp : w.pass = some p)
    {g : List Received} {rest : List (List Received)} (htodo : p.todo = g :: rest)
    (hskips : p.skips g = false) (hrev : isReversal g = true) {original : List Received}
    {mirrored : List AttributionRow} (hm : p.matched g = some (original, mirrored))
    (hnot : NotAlone w p.receipts g) {s' : DividendStore} {d : Decision}
    (hs : Settles w.store s' g mirrored) :
    (∀ row ∈ mirrored, row.activityId ∈ idsOf g) ∧
      ∃ m, p.mirroring g = [m] ∧
        TakesBack { store := s', pass := some (p.decided g rest d), mirrored := w.mirrored }
          (p.decided g rest d) m original := by
  have hps := h.pass p hp
  have hg := hps.takenUp htodo hskips
  obtain ⟨symbol, hin⟩ := matched_mem hm
  obtain ⟨hgroup, -, hforward, hall, hmirror⟩ := mem_originals hin
  obtain ⟨hlen, pairs, hpairs, hmirrored⟩ := mirror_eq_some_iff.1 hmirror
  have hfst := mirrorPairs_originals hpairs hlen
  have hsnd := mirrorPairs_reversals hpairs
  rw [map_member_ids] at hfst hsnd
  have hrows : ∀ row ∈ mirrored, row.activityId ∈ idsOf g := by
    intro row hrow
    rw [← hmirrored] at hrow
    exact hsnd ▸ mirroredRows_activityId hrow
  have hsettled : ∀ r ∈ original, settledIn w.store.statuses r.activityId = true := fun r hr =>
    (hps.agree _).symm.trans (hall r hr)
  have hmem : ∀ x ∈ pairs, x.1 ∈ idsOf original ∧ x.2 ∈ idsOf g := fun x hx =>
    ⟨hfst.subset (List.mem_map_of_mem hx), hsnd ▸ List.mem_map_of_mem hx⟩
  refine ⟨hrows, ⟨idsOf g, idsOf original, pairs⟩, ?_,
    { group := hgroup, forward := hforward, ids := rfl
      settled := fun r hr => (hs.settled _).2 (.inl (hsettled r hr))
      paired := hfst
      answered := fun x hx => (hs.settled _).2 (.inr (hmem x hx).2)
      undone := ?_
      fresh := fresh_of_matched hps hm hnot }⟩
  · simp only [Pass.mirroring, hrev, hm, if_true, Option.toList_some, List.map_cons, List.map_nil,
      hpairs, Option.getD_some]
  · have hnewrow : ∀ x ∈ pairs, ∀ holder,
        amountOf s'.rows.rows x.2 holder = -amountOf p.rows x.1 holder := by
      intro x hx holder
      have hnone : amountOf w.store.rows.rows x.2 holder = 0 := by
        refine amountOf_eq_zero (fun row hrow he => ?_) holder
        have hset := h.attributed row hrow
        rw [he, hg.unsettled _ (hmem x hx).2] at hset
        cases hset
      rw [hs.rows, amountOf_append, hnone, zero_add, ← hmirrored,
        amountOf_mirroredRows (hfst.nodup_iff.2 (hps.nodup_idsOf hgroup))
          (hsnd ▸ hps.nodup_idsOf hg.group) hx,
        amountOf_filter (hmem x hx).1]
    -- Either all of the original was attributed before the pass, or all of it by the pass.
    by_cases hopen : ∃ r ∈ original, r.activityId ∈ p.openIds
    · obtain ⟨r, hr, hropen⟩ := hopen
      right
      intro x hx holder
      obtain ⟨r', hr', hid⟩ := mem_idsOf.1 (hmem x hx).1
      rw [hnewrow x hx, hps.hidden _ (hid ▸ hps.whole _ hgroup r hr hropen (hsettled r hr) r' hr'),
        neg_zero]
    · left
      intro x hx holder
      obtain ⟨r', hr', hid⟩ := mem_idsOf.1 (hmem x hx).1
      have hold : x.1 ∉ idsOf g := by
        intro hin
        have hset := hsettled r' hr'
        rw [hid, hg.unsettled _ hin] at hset
        cases hset
      rw [hnewrow x hx, amountOf_settles hs hrows hold,
        hps.shown _ (fun hin => hopen ⟨r', hr', hid ▸ hin⟩)]

/-- A decision about a group that is no reversal. -/
theorem decision_settled {newYork : Instant → LocalTime} {p : Pass} {g : List Received}
    {e : Evidence} {d : Decision} (hrev : isReversal g = false)
    (h : p.decision newYork g e = .ok d) (hd : settled d.attributionStatus = true) :
    (∃ a ∈ g, a.isIncome = true) ∧ ∀ row ∈ d.rows, row.activityId ∈ idsOf g := by
  simp only [Pass.decision, hrev, Bool.false_eq_true, if_false] at h
  obtain ⟨⟨m, hm, hincome⟩, hrows⟩ := decide_settled h hd
  constructor
  · obtain ⟨a, ha, rfl⟩ := List.mem_map.1 hm
    refine ⟨a, ha, ?_⟩
    by_contra hnot
    simp [Received.member, hnot] at hincome
  · intro row hrow
    obtain ⟨m, hm, hid⟩ := hrows row hrow
    obtain ⟨a, ha, rfl⟩ := List.mem_map.1 hm
    exact mem_idsOf.2 ⟨a, ha, hid.symm⟩

theorem Sound.takesUp {newYork : Instant → LocalTime} {w : World} (h : Sound w) {p : Pass}
    (hp : w.pass = some p) {g : List Received} {rest : List (List Received)}
    (htodo : p.todo = g :: rest) (e : Evidence) (ha : Unrepeated w (.next e)) :
    Sound (w.takesUp newYork p g rest e) := by
  have hps := h.pass p hp
  unfold World.takesUp
  by_cases hskips : p.skips g = true
  · rw [if_pos hskips]
    exact h.withPass (hps.skipped htodo)
  rw [if_neg hskips]
  have hskips := Bool.eq_false_iff.2 hskips
  have hg := hps.takenUp htodo hskips
  cases hdecision : p.decision newYork g e with
  | error e => exact h.dropped
  | ok d =>
      dsimp only
      by_cases hd : settled d.attributionStatus = true
      swap
      · rw [if_neg hd]
        exact h.withPass (hps.refused htodo hg (Bool.eq_false_iff.2 hd))
      rw [if_pos hd]
      cases hcommit : commit d.rows (p.decided g rest d).statuses (idsOf g) w.store with
      | error e => exact h.dropped
      | ok s' =>
          have hs : Settles w.store s' g d.rows := by
            refine commit_ok hcommit (hps.nodup_idsOf hg.group) (fun id hid => ?_) fun id hid =>
              hps.trackedThere id (hg.openIds id hid)
            rw [settledIn_decided hps hg, if_pos hid]
            exact hd
          -- an income gets rows of its own, a reversal those of the one original that it matches
          cases hrev : isReversal g with
          | false =>
              obtain ⟨hincome, hrows⟩ := decision_settled hrev hdecision hd
              have hnone : p.mirroring g = [] := by simp [Pass.mirroring, hrev]
              rw [hnone, List.append_nil]
              exact h.settles hps hg hs hrows (fun _ => hincome) (hps.settles htodo hg hd hs hrows)
          | true =>
              simp only [Pass.decision, hrev, if_true, Except.ok.injEq] at hdecision
              obtain ⟨original, mirrored, hm, hmrows⟩ :=
                reverse_settled (p := p) (g := g) (hdecision ▸ hd)
              rw [hdecision] at hmrows
              rw [hmrows] at hs
              -- the condition is used here, and nowhere else
              have hnot : NotAlone w p.receipts g :=
                ha p hp g (by rw [htodo]; rfl) hrev hskips
              obtain ⟨hrows, m, hmirroring, hback⟩ :=
                takesBack_of_commit h hp htodo hskips hrev hm hnot (d := d) hs
              rw [hmirroring]
              refine Sound.takesBack (w := ⟨s', some (p.decided g rest d), w.mirrored⟩) ?_ rfl hback
              refine h.settles hps hg hs hrows (fun hfalse => ?_) (hps.settles htodo hg hd hs hrows)
              rw [hrev] at hfalse
              cases hfalse

/-- More receipts, and nothing else attributed. -/
structure Extends (s s' : DividendStore) : Prop where
  receipts : s.receipts.rows ⊆ s'.receipts.rows
  rows : s'.rows = s.rows
  settled : ∀ id, settledIn s'.statuses id = settledIn s.statuses id
  kept : ∀ id, (s.statuses.get? id).isSome = true → (s'.statuses.get? id).isSome = true

theorem PassSound.extends {s s' : DividendStore} {p : Pass} (h : PassSound s p)
    (hs : Extends s s') : PassSound s' p :=
  { h with
    known := fun _ hr => hs.receipts (h.known hr)
    trackedThere := fun id hid => hs.kept id (h.trackedThere id hid)
    agree := fun id => (h.agree id).trans (hs.settled id).symm
    within := fun id hid => h.within id (hs.settled id ▸ hid)
    shown := fun id hid holder => by
      rw [hs.rows]
      exact h.shown id hid holder
    whole := fun g hg r hr hopen hset => h.whole g hg r hr hopen (hs.settled _ ▸ hset)
    ahead := fun g hg r hr hopen => (hs.settled _).trans (h.ahead g hg r hr hopen) }

theorem Sound.extends {w : World} (h : Sound w) {s' : DividendStore} (hs : Extends w.store s') :
    Sound { w with store := s' } := by
  -- A settled activity is one that was known before.
  have hknown : ∀ r ∈ s'.receipts.rows, settledIn w.store.statuses r.activityId = true →
      r ∈ w.store.receipts.rows := by
    intro r hr hset
    obtain ⟨r', hr', hid⟩ := h.known _ hset
    rwa [eq_of_activityId hr (hs.receipts hr') hid.symm]
  refine
    { known := fun id hid => ?_, led := fun r hr hset hforward => ?_
      attributed := fun row hrow => ?_
      originals := fun m hm id hid => ?_, whole := fun m hm g hg x hx y hy hxm hset => ?_
      paired := h.paired, nodup := h.nodup
      answered := fun m hm x hx => (hs.settled _).trans (h.answered m hm x hx)
      undone := by
        dsimp only
        rw [hs.rows]
        exact h.undone
      apart := h.apart
      pass := fun p hp => (h.pass p hp).extends hs }
  · obtain ⟨r, hr, he⟩ := h.known id (hs.settled id ▸ hid)
    exact ⟨r, hs.receipts hr, he⟩
  · have hset' := (hs.settled r.activityId).symm.trans hset
    obtain ⟨a, ha, hi, hk, hseta⟩ := h.led r (hknown r hr hset') hset' hforward
    exact ⟨a, hs.receipts ha, hi, hk, (hs.settled _).trans hseta⟩
  · dsimp only at hrow
    rw [hs.rows] at hrow
    exact (hs.settled _).trans (h.attributed row hrow)
  · obtain ⟨hset, r, hr, hrest⟩ := h.originals m hm id hid
    exact ⟨(hs.settled _).trans hset, r, hs.receipts hr, hrest⟩
  · have hset' := (hs.settled y.activityId).symm.trans hset
    obtain ⟨hxset, x', hx', hid, hforward⟩ := h.originals m hm _ hxm
    have hxr := mem_of_mem_groups hg hx
    have hxx : x' = x := eq_of_activityId (hs.receipts hx') hxr hid
    rw [hxx] at hx' hforward
    obtain ⟨a, ha, hai, hak, -⟩ := h.led x hx' hxset hforward
    obtain ⟨g', hg', hxg', hyg'⟩ := exists_group_of_subset (nodup_receipts w.store.receipts)
      hs.receipts hg hx hy hx' (hknown y (mem_of_mem_groups hg hy) hset') ha hai hak
    exact h.whole m hm g' hg' x hxg' y hyg' hxm hset'

theorem settled_statusPayload (receipt : DividendReceipt) (now : Instant) :
    settled (statusPayload receipt now).attributionStatus = false := by
  unfold statusPayload
  dsimp only
  split
  · rfl
  · split <;> rfl

theorem record_extends {s : DividendStore}
    (h : ∀ id, settledIn s.statuses id = true → ∃ r ∈ s.receipts.rows, r.activityId = id)
    (raw : CashActivity) (withheld : Option DecimalText) (now : Instant) :
    Extends s (record raw withheld now s) := by
  have hrefl : Extends s s := ⟨fun _ hr => hr, rfl, fun _ => rfl, fun _ hid => hid⟩
  unfold record
  split
  · rename_i receipt _
    split
    · exact hrefl
    · rename_i hnone
      refine ⟨fun r hr => Table.mem_createOnce_of_mem hr, rfl, fun id => ?_, fun id hid =>
        Table.isSome_get?_createOnce hid⟩
      by_cases hid : id = receipt.activityId
      · -- The activity was not recorded, so it is not settled; what is inserted is open.
        have hbefore : settledIn s.statuses id = false := by
          refine Bool.eq_false_iff.2 fun hset => hnone ?_
          obtain ⟨r, hr, he⟩ := h id hset
          rw [Table.get?_eq_some_iff.2 ⟨hr, he.trans hid⟩]
          rfl
        rw [hbefore]
        by_cases hadmits : s.statuses.Admits (statusPayload receipt now)
        · have hget := Table.get?_createOnce_self hadmits
          rw [settledIn, hid,
            show receipt.activityId = Record.recordId (statusPayload receipt now) from rfl, hget]
          exact settled_statusPayload receipt now
        · rw [Table.createOnce_of_not_admits hadmits]
          exact hbefore
      · exact settledIn_of_get?_eq (Table.get?_createOnce_of_ne hid)
  · exact hrefl

theorem mem_openIn {s : DividendStore} {id : String} :
    id ∈ openIn s ↔ ∃ x, s.statuses.get? id = some x ∧ settled x.attributionStatus = false := by
  unfold openIn
  rw [(List.perm_insertionSort (· ≤ ·) _).mem_iff, List.mem_map]
  constructor
  · rintro ⟨x, hx, rfl⟩
    obtain ⟨hmem, hopen⟩ := List.mem_filter.1 hx
    exact ⟨x, Table.get?_eq_some_iff.2 ⟨hmem, rfl⟩, by simpa using hopen⟩
  · rintro ⟨x, hx, hopen⟩
    obtain ⟨hmem, hid⟩ := Table.get?_eq_some_iff.1 hx
    exact ⟨x, List.mem_filter.2 ⟨hmem, by simpa using hopen⟩, hid⟩

theorem settledIn_of_mem_openIn {s : DividendStore} {id : String} (h : id ∈ openIn s) :
    settledIn s.statuses id = false := by
  obtain ⟨x, hx, hopen⟩ := mem_openIn.1 h
  simp [settledIn, hx, hopen]

theorem nodup_openIn (s : DividendStore) : (openIn s).Nodup := by
  unfold openIn
  refine (List.perm_insertionSort (· ≤ ·) _).nodup_iff.2 ?_
  exact List.pairwise_map.2 ((s.statuses.keyed.imp fun {_ _} hab => hab.1).filter _)

theorem Sound.begin {w : World} (h : Sound w) {now : Instant} {representation : Representation}
    {deadlineOf : String → Instant} {p : Pass}
    (hp : Pass.begin w.store now representation deadlineOf = some p) : PassSound w.store p := by
  unfold Pass.begin at hp
  split at hp
  · cases hp
  cases hp
  have hget := get?_foldl_modify (f := fun id => withDeadline (deadlineOf id))
    (fun _ _ hs => hs) (nodup_openIn w.store) w.store.statuses
  refine
    { known := fun r hr => hr, nodup := nodup_receipts _
      trackedHere := fun id hid => ?_, trackedThere := fun id hid => ?_, agree := fun id => ?_
      within := h.known, shown := fun id hid holder => rfl, hidden := fun id hid holder => ?_
      whole := fun g hg r hr hopen hset => ?_, todo := List.suffix_rfl
      ahead := fun g hg r hr hopen => settledIn_of_mem_openIn hopen }
  · obtain ⟨x, hx, -⟩ := mem_openIn.1 hid
    dsimp only
    rw [hget id, if_pos hid, hx]
    rfl
  · obtain ⟨x, hx, -⟩ := mem_openIn.1 hid
    rw [hx]
    rfl
  · dsimp only
    rw [settledIn, hget id]
    split
    · rw [Option.any_map]
      rfl
    · rfl
  · refine amountOf_eq_zero (fun row hrow he => ?_) holder
    have hset := h.attributed row hrow
    rw [he, settledIn_of_mem_openIn hid] at hset
    cases hset
  · rw [settledIn_of_mem_openIn hopen] at hset
    cases hset

theorem Sound.writes {w : World} (h : Sound w) {p : Pass} (hp : w.pass = some p) (id : String)
    (rest : List String) : Sound (w.writes p id rest) := by
  have hps := h.pass p hp
  have hmodify : ∀ id', (modify p.statuses id (escalated p.now)).get? id' =
      if id' = id then (p.statuses.get? id').map (escalated p.now) else p.statuses.get? id' := by
    have hkey : ∀ s, s.activityId = id → (escalated p.now s).activityId = id := by
      intro s hs
      unfold escalated
      split <;> exact hs
    intro id'
    by_cases hid : id' = id
    · rw [if_pos hid, hid, get?_modify_self hkey]
    · rw [if_neg hid, get?_modify_of_ne hkey hid]
  have hsame : ∀ id', settledIn (modify p.statuses id (escalated p.now)) id' =
      settledIn p.statuses id' := by
    intro id'
    rw [settledIn, hmodify id']
    split
    · rw [Option.any_map, settledIn]
      exact congrArg (fun f => (p.statuses.get? id').any f)
        (funext fun s => settled_escalated p.now s)
    · rfl
  have hpass : PassSound w.store
      { p with statuses := modify p.statuses id (escalated p.now), closing := rest } :=
    { hps with
      trackedHere := fun id' hid => by
        dsimp only
        rw [hmodify id']
        split
        · rw [Option.isSome_map]
          exact hps.trackedHere id' hid
        · exact hps.trackedHere id' hid
      agree := fun id' => (hsame id').trans (hps.agree id') }
  unfold World.writes
  dsimp only
  split
  · exact h.withPass hpass
  · rename_i hopen
    have hstatuses : ∀ id', (writeStatuses (modify p.statuses id (escalated p.now)) [id]
        w.store.statuses).get? id' = _ :=
      get?_writeStatuses (List.nodup_singleton id) w.store.statuses
    have hset : settledIn w.store.statuses id = false :=
      (hps.agree id).symm.trans ((hsame id).symm.trans (Bool.eq_false_iff.2 hopen))
    have hextends : Extends w.store
        { w.store with
          statuses := writeStatuses (modify p.statuses id (escalated p.now)) [id]
            w.store.statuses } := by
      refine ⟨fun _ hr => hr, rfl, fun id' => ?_, fun id' hid' => ?_⟩
      · by_cases hid : id' = id
        · -- The status that is written is as open as the one it replaces.
          rw [hid, hset]
          dsimp only
          rw [settledIn, hstatuses id, if_pos (List.mem_singleton_self id)]
          cases hx : w.store.statuses.get? id with
          | none => rfl
          | some x =>
              rw [settledIn, hx] at hset
              rw [settledIn] at hopen
              cases hy : (modify p.statuses id (escalated p.now)).get? id with
              | none => exact hset
              | some y =>
                  rw [hy] at hopen
                  exact Bool.eq_false_iff.2 hopen
        · exact settledIn_of_get?_eq ((hstatuses id').trans (if_neg (by simpa using hid)))
      · dsimp only
        rw [hstatuses id']
        split
        · rw [Option.isSome_map]
          exact hid'
        · exact hid'
    exact (h.extends hextends).withPass (hpass.extends hextends)

/-- **One step keeps the invariant.** -/
theorem Sound.step {newYork : Instant → LocalTime} {w w' : World} {a : Action} (h : Sound w)
    (ha : Unrepeated w a) (hstep : (passes newYork).step w a = some w') : Sound w' := by
  cases a with
  | recorded raw withheld now =>
      cases hstep
      exact h.extends (record_extends h.known raw withheld now)
  | begins now representation deadlineOf =>
      simp only [passes, World.step] at hstep
      cases hp : w.pass with
      | some p =>
          rw [hp] at hstep
          cases hstep
      | none =>
          rw [hp] at hstep
          cases hstep
          exact { h with pass := fun p hp' => h.begin hp' }
  | next e =>
      simp only [passes, World.step] at hstep
      cases hp : w.pass with
      | none =>
          rw [hp] at hstep
          cases hstep
      | some p =>
          rw [hp] at hstep
          cases htodo : p.todo with
          | nil =>
              simp only [htodo] at hstep
              cases hstep
          | cons g rest =>
              simp only [htodo, Option.some.injEq] at hstep
              rw [← hstep]
              exact h.takesUp hp htodo e ha
  | closes =>
      simp only [passes, World.step] at hstep
      cases hp : w.pass with
      | none =>
          rw [hp] at hstep
          cases hstep
      | some p =>
          rw [hp] at hstep
          dsimp only at hstep
          split at hstep
          · cases hstep
            exact h.writes hp _ _
          · cases hstep
  | stops =>
      cases hstep
      exact h.dropped

/-- **A dividend is reversed at most once** in every run whose steps are all `Unrepeated`: no
attributed group is taken back by two reversals, and of every holder it was given what it was, or
all of it was undone. -/
theorem reversed_at_most_once (newYork : Instant → LocalTime) {w : World}
    (h : (passes newYork).Reaches Unrepeated {} w) : OnceReversed w :=
  (h.invariant Sound.initial fun _ _ _ hs ha hstep => hs.step ha hstep).onceReversed

/-! ### A dividend that is reversed twice -/

/-- The clocks of New York in winter. -/
def easternStandard (t : Instant) : LocalTime :=
  let shifted := t - seconds (5 * 3600)
  ⟨shifted / seconds 86400, shifted % seconds 86400⟩

/-- The beginning of a day, counted from 1970. -/
def startOf (day : ℕ) : Instant := seconds (day * 86400)

/-- A dividend on ten shares, or the reversal of one. -/
def appleDividend (id date : String) (day : ℕ) (amount : ℚ) : CashActivity :=
  { id := id
    activityType := "DIV"
    symbol := "AAPL"
    creditDate := .day date (startOf day + seconds (5 * 3600))
    createdAt := some (startOf day + seconds (14 * 3600))
    netAmount := .exact amount
    perShareAmount := .exact (26 / 100)
    qty := .exact 10
    status := "executed"
    currency := "USD"
    fields := shapeRequired ++ ["created_at"] }

/-- One lot of ten shares, bought before the ex-date, and the announcement. -/
def appleEvidence : Evidence where
  credit := 20770
  announcements :=
    [{ announcementId := "a1"
       sha256 := "0f"
       caType := some "dividend"
       caSubType := some "cash"
       initiatingSymbol := some "AAPL"
       targetSymbol := some "AAPL"
       cash := some (.ok (some (26 / 100)))
       exDate := .ok 20767
       payableDate := .ok 20770 }]
  lots := [⟨"L1", 10, startOf 20759 + seconds (15 * 3600), []⟩]
  inheritedFor := fun _ => none
  quarantined := false

/-- An activity is posted, and a pass takes up so many groups. -/
def postedAndAttributed (raw : CashActivity) (day groupsTaken : ℕ) : List Action :=
  .recorded raw none (startOf day + seconds (15 * 3600)) ::
    .begins (startOf day + seconds (15 * 3600)) .grossAndSeparateWithholding
        (fun _ => startOf (day + 5)) ::
      List.replicate groupsTaken (.next appleEvidence) ++ [.stops]

/-- The dividend is attributed, and reversed. -/
def reversal : List Action :=
  postedAndAttributed (appleDividend "d1" "2026-11-13" 20770 (26 / 10)) 20770 1 ++
    postedAndAttributed (appleDividend "r1" "2026-11-14" 20771 (-26 / 10)) 20771 2

/-- A dividend that is reversed once: it is undone. -/
theorem reversed_once :
    ∃ w, (passes easternStandard).Reaches Unrepeated {} w ∧ OnceReversed w ∧
      w.store.rows.rows.map (fun r => (r.activityId, r.holderId, r.amount)) =
        [("d1", "L1", 26 / 10), ("r1", "L1", -26 / 10)] := by
  have hrun : (((passes easternStandard).runUnder Unrepeated {} reversal).any fun w : World =>
      decide (w.store.rows.rows.map (fun r => (r.activityId, r.holderId, r.amount)) =
        [("d1", "L1", 26 / 10), ("r1", "L1", -26 / 10)])) = true := by decide +kernel
  obtain ⟨w, hreaches, hrows⟩ := Machine.exists_of_runUnder hrun
  exact ⟨w, hreaches, reversed_at_most_once easternStandard hreaches, hrows⟩

/-- **The same dividend is taken back twice**: a second reversal of its amount matches it again, and
the lot that was given 2.60 is left with -2.60. -/
theorem reversed_twice :
    ∃ w, (passes easternStandard).Reaches (fun _ _ => True) {} w ∧ ¬ OnceReversed w := by
  have hrun : (((passes easternStandard).run {} (reversal ++ postedAndAttributed
      (appleDividend "r2" "2026-11-15" 20772 (-26 / 10)) 20772 3)).any fun w : World => decide
      (∃ g ∈ groups w.store.receipts.rows, isReversal g = false ∧
        (∀ r ∈ g, settledIn w.store.statuses r.activityId = true) ∧
        (reversalsOf w.mirrored g).length = 2 ∧
        given w.store.rows.rows g "L1" + takenBack w.store.rows.rows w.mirrored g "L1" =
          -26 / 10)) = true := by decide +kernel
  obtain ⟨w, hreaches, g, hg, hforward, hall, htwo, -⟩ := Machine.exists_of_run hrun
  refine ⟨w, hreaches, fun honce => ?_⟩
  have hone := (honce g hg hforward hall).1
  omega

end Dividends

end TradePulse
