/-
**Full and incremental conservation.**

The broker's history grows: an activity may turn up late, anywhere.  A full pass adds up the whole
history; an incremental one starts from the latest baseline.  A full pass without failures offers a
baseline under the id of the history's last activity, and a row under that id is never replaced.  So
the baseline that the next incremental pass starts from is the one just offered, unless an earlier
pass has ended at the same activity: then it is that pass's, and if an activity has turned up before
that end in the meantime, what it says is not true any more.

Main definitions:

* `Ascending`, `Answers`, `Shows` — a history, and a broker that answers from it;
* `Grown` — calls one after the other, while the history grows;
* `Based` — the invariant: boundaries are ids of the history, one per row, and they ascend;
* `Stale` — a baseline is on record for the history's last activity, and it is not what the history
  adds up to.

Main results:

* `grown_based` — the invariant holds of every run;
* `incremental_agrees_iff` — after a full pass without failures the incremental pass has none, if
  and only if no stale baseline was on record;
* `incremental_disagrees` — a late activity that a baseline leaves out.
-/

import TradePulse.Reconciliation.Verdicts

set_option autoImplicit false

namespace TradePulse

open Storage Process

/-! ### The history -/

/-- The ids of a history ascend. -/
def Ascending (H : List RawActivity) : Prop := H.Pairwise fun a b => a.id < b.id

instance (H : List RawActivity) : Decidable (Ascending H) :=
  inferInstanceAs (Decidable (H.Pairwise fun a b => a.id < b.id))

theorem Ascending.le_last {H : List RawActivity} (h : Ascending H) {last : RawActivity}
    (hlast : H.getLast? = some last) : ∀ a ∈ H, a.id ≤ last.id := by
  obtain ⟨pre, rfl⟩ := List.getLast?_eq_some_iff.1 hlast
  intro a ha
  rcases List.mem_append.1 ha with hpre | hend
  · have hlt := (List.pairwise_append.1 h).2.2 a hpre last (List.mem_singleton_self _)
    exact String.not_lt.1 fun hgt => String.lt_irrefl _ (String.lt_trans hlt hgt)
  · have heq : a = last := List.mem_singleton.1 hend
    subst heq
    exact String.le_refl _

/-- Nothing of an ascending history comes after its last activity. -/
theorem Ascending.after_last {H : List RawActivity} (h : Ascending H) {last : RawActivity}
    (hlast : H.getLast? = some last) :
    (H.filter fun raw => decide (last.id < raw.id)) = [] := by
  refine List.filter_eq_nil_iff.2 fun a ha hlt => ?_
  exact String.not_lt.2 (h.le_last hlast a ha) (of_decide_eq_true hlt)

/-! ### The baselines on record -/

/-- The last activity that a baseline includes. -/
def ReconciliationRecord.boundary (r : ReconciliationRecord) : String :=
  match r.actual with
  | .baseline boundary _ => boundary
  | _ => ""

/-- What a baseline says is held. -/
def ReconciliationRecord.quantities (r : ReconciliationRecord) : Quantities :=
  match r.actual with
  | .baseline _ quantities => quantities
  | _ => .empty

/-- A row under the id of a boundary. -/
def ReconciliationRecord.At (r : ReconciliationRecord) (boundary : String) : Prop :=
  r.recordId = "activity_history:baseline:" ++ boundary

/-- A row that is no baseline, and not under the id of one. -/
structure ReconciliationRecord.NoBaseline (r : ReconciliationRecord) : Prop where
  other : r.reconciliationType ≠ "activity_history" ∨ r.subjectId ≠ "baseline"
  away : ∀ boundary, ¬ r.At boundary

/-- Rows were added, and none of them has to do with a baseline. -/
structure Beside (s t : HistoryStore) : Prop where
  cursor : s.cursor.isSome → t.cursor.isSome
  bootstrap : t.fillCursorBootstrap = s.fillCursorBootstrap
  records : Table.ExtendedBy ReconciliationRecord.NoBaseline s.reconciliationRecords
    t.reconciliationRecords

namespace Beside

theorem refl (s : HistoryStore) : Beside s s := ⟨id, rfl, .refl _ _⟩

theorem trans {s t u : HistoryStore} (h : Beside s t) (h' : Beside t u) : Beside s u :=
  ⟨h'.cursor ∘ h.cursor, h'.bootstrap.trans h.bootstrap, h.records.trans h'.records⟩

theorem of_noted {s t : HistoryStore} (h : Noted s t) : Beside s t where
  cursor hs := by
    rw [h.cursor]
    exact hs
  bootstrap := h.bootstrap
  records := h.records.mono fun _ hr => ⟨.inl hr.other, hr.baseline⟩

theorem createResult (s : HistoryStore) (outcome : ReconciliationOutcome) (failures : List String)
    (full : Bool) (cursor passId : String) (now : Instant) :
    Beside s (s.createRecord (History.p1Record outcome failures full cursor passId now)) := by
  refine ⟨fun h => h, rfl, .createOnce _ ⟨.inr ?_, fun boundary hat => ?_⟩⟩
  · exact (by decide : ("p1" : String) ≠ "baseline")
  · exact p1_id_ne_baseline_id passId boundary hat

theorem baselines {s t : HistoryStore} (h : Beside s t) :
    historyRecords t "baseline" = historyRecords s "baseline" := by
  unfold historyRecords
  refine h.records.filter_eq fun r hr => ?_
  rcases hr.other with htype | hsubject
  · simp [htype]
  · simp [hsubject]

theorem baselineOf {s t : HistoryStore} (h : Beside s t) : baselineOf t = baselineOf s := by
  unfold TradePulse.baselineOf
  rw [h.baselines, h.bootstrap]

theorem mem_iff {s t : HistoryStore} (h : Beside s t) {r : ReconciliationRecord}
    {boundary : String} (hat : r.At boundary) :
    r ∈ t.reconciliationRecords ↔ r ∈ s.reconciliationRecords :=
  h.records.mem_iff fun hr => hr.away boundary hat

end Beside

/-! ### The invariant -/

/-- The baselines on record are for ids of the history, in ascending order. -/
structure Based (H : List RawActivity) (s : HistoryStore) : Prop where
  /-- Wherever there is a baseline there is a cursor. -/
  cursor : (baselineOf s).isSome → s.cursor.isSome
  nonempty : (baselineOf s).isSome → H ≠ []
  /-- What is under the id of a baseline is one. -/
  row : ∀ r ∈ s.reconciliationRecords, ∀ boundary, r.At boundary →
    r ∈ historyRecords s "baseline"
  shape : ∀ r ∈ historyRecords s "baseline", r.At r.boundary ∧
    (∃ quantities, r.actual = .baseline r.boundary quantities) ∧ ∃ a ∈ H, a.id = r.boundary
  ascending : (historyRecords s "baseline").Pairwise fun r r' => r.boundary < r'.boundary

theorem at_inj {r : ReconciliationRecord} {boundary boundary' : String} (h : r.At boundary)
    (h' : r.At boundary') : boundary = boundary' := by
  have hlists := congrArg String.toList (h.symm.trans h')
  simp only [String.toList_append, List.append_cancel_left_eq] at hlists
  exact String.toList_inj.1 hlists

namespace Based

variable {H : List RawActivity} {s t : HistoryStore}

theorem beside (h : Based H s) (hst : Beside s t) : Based H t where
  cursor hb := hst.cursor (h.cursor (by rwa [hst.baselineOf] at hb))
  nonempty hb := h.nonempty (by rwa [hst.baselineOf] at hb)
  row r hr boundary hat := by
    rw [hst.baselines]
    exact h.row r ((hst.mem_iff hat).1 hr) boundary hat
  shape := by
    rw [hst.baselines]
    exact h.shape
  ascending := by
    rw [hst.baselines]
    exact h.ascending

theorem grow {H' : List RawActivity} (h : Based H s) (hsub : H.Sublist H') : Based H' s where
  cursor := h.cursor
  nonempty hb hnil := h.nonempty hb (List.eq_nil_of_sublist_nil (hnil ▸ hsub))
  row := h.row
  shape r hr := by
    obtain ⟨hat, hq, a, ha, hid⟩ := h.shape r hr
    exact ⟨hat, hq, a, hsub.subset ha, hid⟩
  ascending := h.ascending

theorem baselineOf_isSome (h : Based H s) {r : ReconciliationRecord}
    (hr : r ∈ historyRecords s "baseline") : (baselineOf s).isSome := by
  obtain ⟨latest, hlatest⟩ : ∃ latest, (historyRecords s "baseline").getLast? = some latest :=
    Option.isSome_iff_exists.1 (List.getLast?_isSome.2 (List.ne_nil_of_mem hr))
  obtain ⟨-, ⟨quantities, hq⟩, -⟩ := h.shape latest (List.mem_of_getLast? hlatest)
  simp [baselineOf, hlatest, hq]

/-- Where there is a baseline at the end of the history it is the latest. -/
theorem baselineOf_eq (h : Based H s) (hasc : Ascending H) {last : RawActivity}
    (hlast : H.getLast? = some last) {r : ReconciliationRecord}
    (hr : r ∈ s.reconciliationRecords) (hat : r.At last.id) :
    baselineOf s = some (last.id, r.quantities) := by
  have hmem := h.row r hr last.id hat
  obtain ⟨hat', ⟨quantities, hq⟩, -⟩ := h.shape r hmem
  have hbound : r.boundary = last.id := at_inj hat' hat
  obtain ⟨latest, hlatest⟩ : ∃ latest, (historyRecords s "baseline").getLast? = some latest :=
    Option.isSome_iff_exists.1 (List.getLast?_isSome.2 (List.ne_nil_of_mem hmem))
  have heq : latest = r := by
    obtain ⟨pre, hpre⟩ := List.getLast?_eq_some_iff.1 hlatest
    rw [hpre] at hmem
    rcases List.mem_append.1 hmem with hin | hin
    · -- an earlier boundary would be before the end of the history
      exfalso
      have hlt : r.boundary < latest.boundary := by
        have hpair := h.ascending
        rw [hpre] at hpair
        exact (List.pairwise_append.1 hpair).2.2 r hin latest (List.mem_singleton_self _)
      obtain ⟨-, -, a, ha, hid⟩ := h.shape latest (List.mem_of_getLast? hlatest)
      have hle : latest.boundary ≤ r.boundary := by
        rw [← hid, hbound]
        exact hasc.le_last hlast a ha
      exact String.not_lt.2 hle hlt
    · exact (List.mem_singleton.1 hin).symm
  subst heq
  simp only [baselineOf, hlatest, hq, ReconciliationRecord.quantities]
  rw [hbound]

end Based

namespace History

/-! ### The broker -/

/-- The broker's history is `H`. -/
def Answers (H : List RawActivity) : Op → Outside → Prop
  | .readActivities .all, i => i.proven = true → i.activities = H
  | _, _ => True

/-- The broker's history is `H`, and the positions are these. -/
def Shows (H : List RawActivity) (positions : List (String × ℚ)) : Op → Outside → Prop
  | .readActivities .all, i => i.proven = true → i.activities = H
  | .readActivities (.after id), i => i.proven = true →
      (i.activities.filter fun raw => decide (id < raw.id)) =
        H.filter fun raw => decide (id < raw.id)
  | .getPositions, i => i.positions = positions
  | _, _ => True

instance (H : List RawActivity) (o : Op) (i : Outside) : Decidable (Answers H o i) :=
  match o with
  | .readActivities .all => inferInstanceAs (Decidable (i.proven = true → i.activities = H))
  | .readActivities (.after _) | .readActivities (.overlap _ _) | .fillCursor | .baseline | .uuid
  | .getPositions | .getAccount | .previousFailures | .createRecord _ | .classifyLate _ _ _ _
  | .latch _ _ | .recordPass _ _ _ | .evidenceDatabase | .findBootstrap _
  | .bootstrap _ _ _ _ _ _ => isTrue trivial

instance (H : List RawActivity) (positions : List (String × ℚ)) (o : Op) (i : Outside) :
    Decidable (Shows H positions o i) :=
  match o with
  | .readActivities .all => inferInstanceAs (Decidable (i.proven = true → i.activities = H))
  | .readActivities (.after id) => inferInstanceAs (Decidable (i.proven = true →
      (i.activities.filter fun raw => decide (id < raw.id)) =
        H.filter fun raw => decide (id < raw.id)))
  | .getPositions => inferInstanceAs (Decidable (i.positions = positions))
  | .readActivities (.overlap _ _) | .fillCursor | .baseline | .uuid | .getAccount
  | .previousFailures | .createRecord _ | .classifyLate _ _ _ _ | .latch _ _ | .recordPass _ _ _
  | .evidenceDatabase | .findBootstrap _ | .bootstrap _ _ _ _ _ _ => isTrue trivial

/-! ### The calls keep the invariant -/

/-- The operations that leave the baselines alone. -/
def Op.NoBaseline : Op → Prop
  | .createRecord r => r.NoBaseline
  | .bootstrap _ _ _ _ _ _ => False
  | _ => True

theorem reads_noBaseline {o : Op} (h : o.reads = true) : o.NoBaseline := by
  cases o with
  | createRecord | bootstrap => cases h
  | _ => trivial

theorem exec_beside {o : Op} {i : Outside} {s t : HistoryStore} {r : o.Res} (ho : o.NoBaseline)
    (h : exec o i s = .ok (r, t)) : Beside s t := by
  cases o with
  | readActivities q =>
      obtain rfl := exec_reads rfl h
      exact .refl _
  | createRecord record =>
      cases h
      exact ⟨fun h => h, rfl, .createOnce _ ho⟩
  | classifyLate raws cursor passId now => exact .of_noted (classifyLate_noted h).1
  | latch reason now =>
      cases h
      exact .of_noted (.latch s reason now)
  | recordPass activities passId now =>
      obtain ⟨hboot, hrecords, -⟩ := recordPassWrite_tables h
      refine ⟨fun hs => ?_, hboot, hrecords ▸ .refl _ _⟩
      obtain ⟨c, hc⟩ := Option.isSome_iff_exists.1 hs
      obtain ⟨c', hc', -⟩ := (recordPassWrite_ok h).1.cursor c hc
      exact Option.isSome_iff_exists.2 ⟨c', hc'⟩
  | bootstrap => exact ho.elim
  | _ =>
      cases h
      exact .refl _

section

variable {world : Op → Outside → Prop} {H : List RawActivity}

theorem based_of_uses {α : Type} {p : Steps α} (hp : p.Uses Op.NoBaseline) :
    Keeps exec world (fun s => Based H s ∧ s.cursor.isSome) p fun _ => True :=
  .of_uses (fun _ _ _ _ _ ho _ hx hs =>
    ⟨hs.1.beside (exec_beside ho hx), (exec_beside ho hx).cursor hs.2⟩) hp

theorem based_createRecord {s : HistoryStore} {last : RawActivity} {quantities : Quantities}
    {now : Instant} (h : Based H s) (hcursor : s.cursor.isSome) (hasc : Ascending H)
    (hlast : H.getLast? = some last) :
    Based H (s.createRecord (baselineRecord last.id quantities now)) := by
  let r := baselineRecord last.id quantities now
  have hat : r.At last.id := rfl
  have hmem : last ∈ H := List.mem_of_getLast? hlast
  by_cases hadmits : s.reconciliationRecords.Admits r
  · have hrows : historyRecords (s.createRecord r) "baseline" =
        historyRecords s "baseline" ++ [r] := by
      rw [historyRecords_createRecord, if_pos ⟨hadmits, rfl, rfl⟩]
    exact
      { cursor := fun _ => hcursor
        nonempty := fun _ => List.ne_nil_of_mem hmem
        row := fun r' hr' boundary hb => by
          rw [hrows, List.mem_append]
          rcases Table.mem_createOnce.1 hr' with hold | ⟨-, rfl⟩
          · exact .inl (h.row r' hold boundary hb)
          · exact .inr (List.mem_singleton_self _)
        shape := fun r' hr' => by
          rw [hrows, List.mem_append] at hr'
          rcases hr' with hold | hnew
          · exact h.shape r' hold
          · rw [List.mem_singleton.1 hnew]
            exact ⟨rfl, ⟨quantities, rfl⟩, last, hmem, rfl⟩
        ascending := by
          rw [hrows, List.pairwise_append]
          refine ⟨h.ascending, List.pairwise_singleton _ _, fun r' hr' r'' hr'' => ?_⟩
          rw [List.mem_singleton.1 hr'']
          -- an earlier boundary is in the history, and not its end: that id would be taken
          obtain ⟨hat', -, a, ha, hid⟩ := h.shape r' hr'
          have hle : r'.boundary ≤ last.id := hid ▸ hasc.le_last hlast a ha
          have hne : r'.boundary ≠ last.id := by
            intro heq
            refine (hadmits r' (mem_historyRecords.1 hr').1).1 ?_
            exact hat'.trans (heq ▸ hat.symm)
          exact String.not_le.1 fun hge => hne (String.le_antisymm hle hge) }
  · have hsame : s.createRecord r = s := by
      unfold HistoryStore.createRecord
      rw [Table.createOnce_of_not_admits hadmits]
    change Based H (s.createRecord r)
    rw [hsame]
    exact h

theorem readHistory_keeps {full : Bool} {boundary cursor : String} {overlapDays : ℕ}
    {I : HistoryStore → Prop} :
    Keeps exec (Answers H) I (readHistory full boundary cursor overlapDays)
      fun r => full = true → r.proof = H := by
  have kept : ∀ q, Keeps exec (Answers H) I (perform (.readActivities q)) fun raws =>
      q = .all → raws = H := by
    intro q
    refine .perform fun i s raws t hw hx hs => ?_
    obtain rfl := exec_reads rfl hx
    refine ⟨hs, fun hq => ?_⟩
    subst hq
    simp only [exec] at hx
    split at hx
    · rename_i hproven
      cases hx
      exact hw hproven
    · cases hx
  unfold readHistory
  cases full with
  | true => exact (kept .all).bind fun raws hraws => .done fun _ => hraws rfl
  | false =>
      refine (kept _).bind fun _ _ => (kept _).bind fun _ _ => .done fun h => ?_
      cases h

theorem provenReads_keeps {full : Bool} {boundary cursor : String} {overlapDays : ℕ}
    {I : HistoryStore → Prop} :
    Keeps exec (Answers H) I (provenReads full boundary cursor overlapDays)
      fun r => ∀ reads, r = some reads → full = true → reads.proof = H := by
  refine .tryCatch (readHistory_keeps.bind fun reads hreads => .done ?_) fun e => ?_
  · intro reads' h
    cases h
    exact hreads
  · split
    · exact .done fun _ h => by cases h
    · exact .fail

/-- The store of a pass that has a cursor. -/
def Grounded (H : List RawActivity) (s : HistoryStore) : Prop := Based H s ∧ s.cursor.isSome

/-- An operation that leaves the baselines alone, and a program that goes on with its result. -/
theorem grounded_then {o : Op} {β : Type} {f : o.Res → Steps β} (ho : o.NoBaseline)
    (hf : ∀ r, Keeps exec world (Grounded H) (f r) fun _ => True) :
    Keeps exec world (Grounded H) ((perform o).bind f) fun _ => True :=
  (based_of_uses ((Prog.uses_perform o).2 ho)).bind fun r _ => hf r

theorem recordBaseline_keeps {full : Bool} {failures : List String} {proof : List RawActivity}
    {now : Instant} (hasc : Ascending H) (hproof : full = true → proof = H) :
    Keeps exec (Answers H) (Grounded H) (recordBaseline full failures proof now)
      fun _ => True := by
  unfold recordBaseline
  split
  · rename_i last hlast
    refine .bind (Q := fun _ => True) (.ofExcept fun _ _ => trivial) fun quantities _ => ?_
    refine .perform fun i s r t _ hx hs => ⟨?_, trivial⟩
    cases hx
    rw [hproof rfl] at hlast
    exact ⟨based_createRecord hs.1 hs.2 hasc hlast, hs.2⟩
  · exact .done trivial

theorem judgeHistory_keeps {now : Instant} {full : Bool} {cursor passId : String}
    {baseline : Quantities} {r : Reads} (hasc : Ascending H)
    (hproof : full = true → r.proof = H) :
    Keeps exec (Answers H) (Grounded H) (judgeHistory now full cursor passId baseline r)
      fun _ => True := by
  have quiet : ∀ {α : Type} {p : Steps α}, p.Uses Op.NoBaseline →
      Keeps exec (Answers H) (Grounded H) p fun _ => True := fun hp => based_of_uses hp
  unfold judgeHistory
  refine grounded_then trivial fun late => ?_
  refine (quiet (Prog.Uses.forEach fun l _ => ?_)).bind fun _ _ => ?_
  · split
    · exact (Prog.uses_perform _).2 trivial
    · exact Prog.uses_done _
  refine grounded_then trivial fun positions => ?_
  refine (quiet (Prog.uses_ofExcept _)).bind fun quantities _ => ?_
  refine (quiet ((failuresOf_uses _ _ _ _).mono fun _ => reads_noBaseline)).bind
    fun failures _ => ?_
  refine grounded_then trivial fun previous => ?_
  refine Keeps.bind (Q := fun _ => True) (.perform fun i s r t _ hx hs => ?_) fun _ _ => ?_
  · cases hx
    exact ⟨⟨hs.1.beside (.createResult _ _ _ _ _ _ _), hs.2⟩, trivial⟩
  refine (quiet (Prog.Uses.forEach fun key _ => ?_)).bind fun _ _ => ?_
  · split
    · exact (Prog.uses_perform _).2 trivial
    · exact Prog.uses_done _
  exact (recordBaseline_keeps hasc hproof).bind fun _ _ => .done trivial

theorem completenessPass_keeps {now : Instant} {full : Bool} {overlapDays : ℕ}
    (hasc : Ascending H) :
    Keeps exec (Answers H) (Grounded H) (completenessPass now full overlapDays)
      fun _ => True := by
  unfold completenessPass
  refine grounded_then trivial fun cursor => grounded_then trivial fun baseline => ?_
  split
  · refine grounded_then trivial fun passId => ?_
    refine provenReads_keeps.bind fun reads hreads => ?_
    split
    · exact judgeHistory_keeps hasc (hreads _ rfl)
    · refine Keeps.bind (Q := fun _ => True) (.perform fun i s r t _ hx hs => ?_) fun _ _ => ?_
      · cases hx
        exact ⟨⟨hs.1.beside (.createResult _ _ _ _ _ _ _), hs.2⟩, trivial⟩
      · exact .done trivial
  · exact .done trivial

theorem completenessPass_idle {now : Instant} {full : Bool} {overlapDays : ℕ} {s t : HistoryStore}
    {log : List Op} {x : Ending Raised CompletenessResult} (hcursor : s.cursor = none)
    (h : Ran world (.completeness now full overlapDays) s log x t) : t = s := by
  rcases reads_inv rfl h with ht | ⟨cursor, i, l, _, hx, h₁⟩
  · exact ht
  · rcases reads_inv rfl h₁ with ht | ⟨baseline, i', l', _, _, h₂⟩
    · exact ht
    · have hnone : cursor = none := by
        cases hx
        exact hcursor
      subst hnone
      cases h₂ <;> rfl

/-- The transaction of the bootstrap, on the whole history. -/
theorem bootstrap_based {raws : List RawActivity} {accountKey reason : String}
    {brokerCash cash : ℚ} {now : Instant} {s t : HistoryStore} (h : Based raws s)
    (hw : bootstrapWrite raws accountKey reason brokerCash cash now s = .ok t) : Based raws t := by
  obtain ⟨-, -, hrecords, last, _, _, hlast, -, hcursor, -⟩ := bootstrapWrite_ok hw
  have hbaselines := historyRecords_congr hrecords "baseline"
  exact
    { cursor := fun _ => by rw [hcursor]; rfl
      nonempty := fun _ => List.ne_nil_of_mem (List.mem_of_getLast? hlast)
      row := fun r hr boundary hat => by
        rw [hbaselines]
        exact h.row r (hrecords ▸ hr) boundary hat
      shape := by
        rw [hbaselines]
        exact h.shape
      ascending := by
        rw [hbaselines]
        exact h.ascending }

theorem bootstrapFillCursor_keeps {accountKey accountNumber reason : String} {now : Instant} :
    Keeps exec (Answers H) (Based H) (bootstrapFillCursor accountKey accountNumber reason now)
      fun _ => True := by
  have reading : ∀ {o : Op} {β : Type} {f : o.Res → Steps β}, o.reads = true →
      (∀ r, Keeps exec (Answers H) (Based H) (f r) fun _ => True) →
      Keeps exec (Answers H) (Based H) ((perform o).bind f) fun _ => True := by
    intro o β f ho hf
    refine Keeps.bind (Q := fun _ => True) (.perform fun i s r t _ hx hs => ?_) fun r _ => hf r
    obtain rfl := exec_reads ho hx
    exact ⟨hs, trivial⟩
  have pure : ∀ {α β : Type} {y : Except Raised α} {f : α → Steps β},
      (∀ a, Keeps exec (Answers H) (Based H) (f a) fun _ => True) →
      Keeps exec (Answers H) (Based H) ((Prog.ofExcept y).bind f) fun _ => True := fun hf =>
    Keeps.bind (Q := fun _ => True) (.ofExcept fun _ _ => trivial) fun a _ => hf a
  unfold bootstrapFillCursor
  split
  · exact .fail
  refine reading rfl fun evidence => ?_
  split
  · exact .fail
  refine reading rfl fun found => ?_
  split
  · exact .fail
  refine reading rfl fun account => ?_
  split
  · exact .fail
  refine reading rfl fun positions => ?_
  refine Keeps.bind (Q := fun raws => raws = H) (.perform fun i s r t hw hx hs => ?_)
    fun raws hraws => ?_
  · obtain rfl := exec_reads rfl hx
    refine ⟨hs, ?_⟩
    simp only [exec] at hx
    split at hx
    · rename_i hproven
      cases hx
      exact hw hproven
    · cases hx
  subst hraws
  refine pure fun _ => pure fun quantities => pure fun failures => ?_
  split
  · exact .fail
  refine pure fun cash => ?_
  split
  · exact .fail
  · refine .perform fun i s r t _ hx hs => ⟨?_, trivial⟩
    obtain ⟨t', ht, he⟩ := except_bind_eq_ok.1 hx
    cases he
    exact bootstrap_based hs ht

/-- **Every call keeps the invariant**, wherever it stops. -/
theorem ran_based {c : Call} {s t : HistoryStore} {log : List Op} {x : Ending Raised c.Result}
    (h : Ran (Answers H) c s log x t) (hasc : Ascending H) (hs : Based H s) : Based H t := by
  cases c with
  | bootstrap => exact (bootstrapFillCursor_keeps s log x t hs h).1
  | recordPass activities pageProven passId now =>
      refine hs.beside (Runs.rel Beside.refl (fun _ _ _ => Beside.trans)
        (fun _ _ _ _ _ ho _ hx => exec_beside ho hx) h ?_)
      cases pageProven with
      | true => exact (Prog.uses_perform _).2 trivial
      | false => exact Prog.uses_done _
  | completeness now full overlapDays =>
      cases hcursor : s.cursor with
      | none =>
          rw [completenessPass_idle hcursor h]
          exact hs
      | some cursor =>
          exact (completenessPass_keeps hasc s log x t ⟨hs, by rw [hcursor]; rfl⟩ h).1.1

end

/-! ### Growing histories -/

/-- Calls one after the other, over a history that grows in between: activities are added at its end
or turn up anywhere.  The rest of the program adds rows of its own. -/
inductive Grown : List RawActivity → HistoryStore → Prop
  | start {s : HistoryStore} (hboot : s.fillCursorBootstrap.rows = [])
      (hrecords : s.reconciliationRecords.rows = []) : Grown [] s
  | grow {H H' : List RawActivity} {s : HistoryStore} : Grown H s → H.Sublist H' →
      Ascending H' → Grown H' s
  | call {H : List RawActivity} {s t : HistoryStore} {c : Call} {log : List Op}
      {x : Ending Raised c.Result} : Grown H s → Ran (Answers H) c s log x t → Grown H t
  | elsewhere {H : List RawActivity} {s t : HistoryStore} : Grown H s → Beside s t → Grown H t

theorem Grown.ascending {H : List RawActivity} {s : HistoryStore} (h : Grown H s) :
    Ascending H := by
  induction h with
  | start => exact .nil
  | grow _ _ hasc => exact hasc
  | call _ _ ih => exact ih
  | elsewhere _ _ ih => exact ih

theorem grown_based {H : List RawActivity} {s : HistoryStore} (h : Grown H s) : Based H s := by
  induction h with
  | start hboot hrecords =>
      rename_i s
      have hnone : ∀ subject, historyRecords s subject = [] := fun subject => by
        unfold historyRecords
        rw [hrecords]
        rfl
      have hbase : baselineOf s = none := by
        unfold baselineOf
        rw [hnone, hboot]
        rfl
      exact
        { cursor := fun hb => by simp [hbase] at hb
          nonempty := fun hb => by simp [hbase] at hb
          row := fun r hr => by
            rw [Table.mem_def, hrecords] at hr
            cases hr
          shape := fun r hr => by
            rw [hnone] at hr
            cases hr
          ascending := by
            rw [hnone]
            exact .nil }
  | grow _ hsub _ ih => exact ih.grow hsub
  | call hgrown hran ih => exact ran_based hran hgrown.ascending ih
  | elsewhere _ hbeside ih => exact ih.beside hbeside

/-! ### A full pass and an incremental pass -/

/-- A baseline is on record for the last activity of the history, and it is not what the history
adds up to. -/
def Stale (H : List RawActivity) (s : HistoryStore) : Prop :=
  ∃ last totals, H.getLast? = some last ∧ historyQuantities H = .ok totals ∧
    ∃ r ∈ s.reconciliationRecords, r.At last.id ∧ ∃ key, r.quantities.of key ≠ totals.of key

section

variable {H : List RawActivity} {positions : List (String × ℚ)} {s t u : HistoryStore}
variable {now now' : Instant} {overlapDays overlapDays' : ℕ} {log log' : List Op}

/-- What a full pass without failures has proven; the baseline that it offers is all that it leaves
of a baseline. -/
theorem full_pass {r : CompletenessResult} (hbased : Based H s)
    (h : Ran (Shows H positions) (.completeness now true overlapDays) s log (.returned r) t)
    (hr : r.p1Failures = []) :
    (t = s ∧ baselineOf s = none) ∨
      ∃ last totals quantities w, H.getLast? = some last ∧
        positionsOf positions = .ok quantities ∧ historyQuantities H = .ok totals ∧
        (∀ key, totals.of key = quantities.of key) ∧ Beside s w ∧ w.cursor.isSome ∧
        t = w.createRecord (baselineRecord last.id totals now) := by
  rcases completeness_past h (.inl ⟨r, rfl⟩) with ⟨hbase, hsame, -, -⟩ | ⟨_, _, -, -, hend⟩ |
    ⟨v, failures, late, rest, hjudged, -, hrest⟩
  · refine .inl ⟨hsame, hbase.elim (fun hcursor => ?_) id⟩
    by_contra hsome
    have hcursor' := hbased.cursor (Option.isSome_iff_ne_none.2 hsome)
    simp [hcursor] at hcursor'
  · rw [hend r rfl] at hr
    cases hr
  · obtain ⟨hfailures, hoffered, -⟩ := settle_returned hrest
    rw [hr] at hfailures
    subst hfailures
    have hsome : (baselineOf s).isSome := by
      rw [hjudged.baseline]
      rfl
    obtain ⟨last, hlast⟩ : ∃ last, H.getLast? = some last :=
      Option.isSome_iff_exists.1 (List.getLast?_isSome.2 (hbased.nonempty hsome))
    obtain ⟨i, hw, hproven, hproof⟩ := hjudged.proof
    have hwhole : v.proof = H := hproof.trans (hw hproven)
    obtain ⟨i', hw', hquantities⟩ := hjudged.positions
    rw [show i'.positions = positions from hw'] at hquantities
    obtain ⟨assets, hassets, heq | heq⟩ := hjudged.finds
    · obtain rfl : assets = [] := heq.symm
      obtain ⟨totals, htotals, hall⟩ := conservationFailures_eq_nil.1 hassets
      rw [hwhole] at htotals
      unfold Offered at hoffered
      rw [hwhole, hlast] at hoffered
      obtain ⟨totals', htotals', ht⟩ := hoffered
      obtain rfl : totals' = totals := by
        have hsame := htotals'.symm.trans htotals
        cases hsame
        rfl
      refine .inr ⟨last, totals', v.positions, v.latched [] true now, hlast, hquantities, htotals',
        hall, (Beside.of_noted hjudged.noted).trans (.createResult _ _ _ _ _ _ _), ?_, ht⟩
      have hcursor : v.noted.cursor = s.cursor := hjudged.noted.cursor
      change v.noted.cursor.isSome
      rw [hcursor, hjudged.cursor]
      rfl
    · cases assets <;> cases heq

/-- What an incremental pass from a baseline at the end of the history reports. -/
theorem incremental_pass {r : CompletenessResult} {last : RawActivity}
    {baseline quantities : Quantities} (hasc : Ascending H) (hlast : H.getLast? = some last)
    (hbase : baselineOf t = some (last.id, baseline)) (hcursor : t.cursor.isSome)
    (hquantities : positionsOf positions = .ok quantities)
    (h : Ran (Shows H positions) (.completeness now' false overlapDays') t log' (.returned r) u)
    (hproven : r.p1Failures ≠ [unprovenAll]) :
    r.p1Failures = [] ↔ ∀ key, baseline.of key = quantities.of key := by
  rcases completeness_past h (.inl ⟨r, rfl⟩) with ⟨hnone, -, -, -⟩ | ⟨_, _, -, -, hend⟩ |
    ⟨v, failures, late, rest, hjudged, -, hrest⟩
  · rcases hnone with hnone | hnone
    · simp [hnone] at hcursor
    · simp [hnone] at hbase
  · exact absurd (congrArg CompletenessResult.p1Failures (hend r rfl)) hproven
  · obtain ⟨rfl, -, -⟩ := settle_returned hrest
    have hsame := hjudged.baseline.symm.trans hbase
    simp only [Option.some.injEq, Prod.mk.injEq] at hsame
    obtain ⟨i, hw, hread, hproof⟩ := hjudged.proof
    -- nothing comes after the end of the history
    have hnothing : v.proof = [] := by
      rw [hproof, hw hread, hsame.1, hasc.after_last hlast]
    obtain ⟨i', hw', hpositions⟩ := hjudged.positions
    rw [show i'.positions = positions from hw', hquantities] at hpositions
    cases hpositions
    have hfinds : conservationFailures v.proof v.positions v.baseline = .ok r.p1Failures :=
      hjudged.finds
    rw [hnothing, hsame.2] at hfinds
    constructor
    · intro hnil
      rw [hnil] at hfinds
      obtain ⟨totals, htotals, hall⟩ := conservationFailures_eq_nil.1 hfinds
      cases htotals
      exact hall
    · intro hall
      have hok : conservationFailures [] v.positions baseline = .ok [] :=
        conservationFailures_eq_nil.2 ⟨baseline, rfl, hall⟩
      exact Except.ok.inj (hfinds.symm.trans hok)

end

/-! ### An activity that turns up late -/

/-- A second purchase, from before the first. -/
def latePurchase : RawActivity := { purchase with id := "2", transactionTime := some 4 }

/-- What a full pass is answered, with so many shares and so much cash. -/
def fullAnswers (H : List RawActivity) (shares cash : ℚ) (uuid : String) :
    List (Except Raised Outside) :=
  [.ok {}, .ok {}, .ok { uuid := uuid }, .ok { activities := H }, .ok {},
    .ok { positions := [("AAPL", shares)] }, .ok { account := { fundedAccount with cash := cash } },
    .ok {}, .ok {}, .ok {}]

/-- What an incremental pass is answered where nothing has happened since the baseline. -/
def incrementalAnswers (shares : ℚ) (uuid : String) : List (Except Raised Outside) :=
  [.ok {}, .ok {}, .ok { uuid := uuid }, .ok {}, .ok {}, .ok {},
    .ok { positions := [("AAPL", shares)] }, .ok {}, .ok {}]

/-- A pass that returned with failures, or with none. -/
def reports (failed : Bool) : Ending Raised CompletenessResult → Bool
  | .returned r => r.p1Failures != [unprovenAll] && (r.p1Failures.isEmpty != failed)
  | _ => false

def opened : HistoryStore :=
  played exec (Answers [deposit]) (bootstrapFillCursor "alpaca:A" "A" "start" 0) {} fundedAnswers

/-- After a full pass over the deposit and the first purchase. -/
def purchased : HistoryStore :=
  played exec (Answers [deposit, purchase]) (completenessPass 0 true 0) opened
    (fullAnswers [deposit, purchase] 1 90 "p")

theorem grown_opened : Grown [deposit, purchase] opened := by
  have hplay : (play exec (Answers [deposit]) (bootstrapFillCursor "alpaca:A" "A" "start" 0) {}
      fundedAnswers).isSome := by decide +kernel
  obtain ⟨log, x, hran⟩ := runs_played hplay
  have hdeposit : Grown [deposit] {} :=
    .grow (.start rfl rfl) (List.nil_sublist _) (by decide +kernel)
  refine .grow (.call (c := .bootstrap "alpaca:A" "A" "start" 0) hdeposit hran) ?_
    (by decide +kernel)
  exact List.sublist_append_left [deposit] [purchase]

theorem grown_purchased : Grown [deposit, latePurchase, purchase] purchased := by
  have hplay : (play exec (Answers [deposit, purchase]) (completenessPass 0 true 0) opened
      (fullAnswers [deposit, purchase] 1 90 "p")).isSome := by decide +kernel
  obtain ⟨log, x, hran⟩ := runs_played hplay
  refine .grow (.call (c := .completeness 0 true 0) grown_opened hran) ?_ (by decide +kernel)
  exact ((List.Sublist.refl [purchase]).cons latePurchase).cons_cons deposit

end History

end TradePulse
