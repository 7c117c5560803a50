/-
**What the cursor has passed is accounted for.**

Calls follow each other in any order, and any of them may raise or crash between two of its
operations.  Coverage is a matter of single transactions: each covers what it is given before it is
committed, and none uncovers anything.  So a fill that a committed transaction was given stays
covered, whatever the calls after it do and wherever they stop.

A completeness pass classifies what was delivered at or before the cursor that it read; what it
sees beyond that is left to the record pass.

Main definitions:

* `Delivered` — the fills that a transaction answers for;
* `Passes` — calls one after the other, and the rest of the program in between;
* `Unproven`, `UnprovenAt` — a broker none of whose pages is proven, or none that answers some
  queries;
* `Recorded` — what a completeness pass writes once it has classified.

Main results:

* `exec_grows`, `exec_covers` — one transaction;
* `completeness_runs` — what a completeness pass writes, however it ends;
* `cursor_covers` — every run;
* `unproven_pass_writes` — a completeness pass over an unproven page writes a row of its own.
-/

import TradePulse.Reconciliation.Completeness

set_option autoImplicit false

namespace TradePulse

open Storage Process

namespace History

/-- The fills that a transaction answers for. -/
def Delivered : Op → String → Prop
  | .recordPass activities _ _, id => ∃ a ∈ activities, a.activityType = "FILL" ∧ a.activityId = id
  | .bootstrap raws _ _ _ _ _, id => ∃ raw ∈ raws, raw.isFill = true ∧ raw.id = id
  | .classifyLate raws cursor _ _, id =>
      ∃ raw ∈ raws, raw.isFill = true ∧ raw.id = id ∧ raw.id ≤ cursor
  | _, _ => False

/-- Calls one after the other; in between, the rest of the program accounts for more. -/
inductive Passes (s : HistoryStore) : HistoryStore → Prop
  | refl : Passes s s
  | call {t u : HistoryStore} {c : Call} {log : List Op} {x : Ending Raised c.Result} :
      Passes s t → Ran anyAnswer c t log x u → Passes s u
  | elsewhere {t u : HistoryStore} : Passes s t → Grows t u → u.cursor = t.cursor → Passes s u

/-- A completeness pass classifies what it has read, and the fill with an id is among it. -/
def Op.shows (id : String) : Op → Bool
  | .classifyLate raws _ _ _ => raws.any fun raw => raw.isFill && raw.id == id
  | _ => false

/-- No page of the broker is proven. -/
def Unproven : Op → Outside → Prop := fun _ i => i.proven = false

instance (o : Op) (i : Outside) : Decidable (Unproven o i) :=
  inferInstanceAs (Decidable (i.proven = false))

/-- No answer to one of these queries proves its pages. -/
def UnprovenAt (unread : Query → Prop) : Op → Outside → Prop
  | .readActivities q, i => unread q → i.proven = false
  | _, _ => True

/-- What a completeness pass reads. -/
def queriesOf (full : Bool) (boundary cursor : String) (overlapDays : ℕ) : List Query :=
  if full then [.all] else [.after boundary, .overlap cursor overlapDays]

/-! ### One transaction -/

theorem latch_eq (s : HistoryStore) (reason : String) (now : Instant) :
    ∃ session, s.latch reason now = { s with session := session } := by
  unfold HistoryStore.latch
  split
  · exact ⟨s.session, rfl⟩
  · exact ⟨_, rfl⟩

theorem exec_grows {o : Op} {i : Outside} {s t : HistoryStore} {r : o.Res}
    (h : exec o i s = .ok (r, t)) : Grows s t := by
  cases o with
  | readActivities q =>
      simp only [exec] at h
      split at h
      · cases h
        exact .refl s
      · cases h
  | createRecord record =>
      cases h
      exact .of_tables rfl rfl rfl (fun _ h => h) fun _ h => h
  | classifyLate raws cursor passId now => exact (classifyLate_ok h).1
  | latch reason now =>
      cases h
      obtain ⟨session, hs⟩ := latch_eq s reason now
      rw [hs]
      exact .of_tables rfl rfl rfl (fun _ h => h) fun _ h => h
  | recordPass activities passId now => exact (recordPassWrite_ok h).1
  | bootstrap raws accountKey reason brokerCash cash now =>
      obtain ⟨t', ht, he⟩ := except_bind_eq_ok.1 h
      cases he
      exact (bootstrapWrite_ok ht).1
  | _ =>
      cases h
      exact .refl _

theorem exec_covers {o : Op} {i : Outside} {s t : HistoryStore} {r : o.Res} {id : String}
    (h : exec o i s = .ok (r, t)) (hid : Delivered o id) : t.covered id = true := by
  cases o with
  | recordPass activities passId now =>
      obtain ⟨a, ha, hfill, rfl⟩ := hid
      exact (recordPassWrite_ok h).2 a ha hfill
  | bootstrap raws accountKey reason brokerCash cash now =>
      obtain ⟨t', ht, he⟩ := except_bind_eq_ok.1 h
      cases he
      obtain ⟨raw, hraw, hfill, rfl⟩ := hid
      exact (bootstrapWrite_ok ht).2.1 raw hraw hfill
  | classifyLate raws cursor passId now =>
      obtain ⟨raw, hraw, hfill, rfl, hle⟩ := hid
      exact (classifyLate_ok h).2.2 raw hraw hfill hle
  | _ => cases hid

/-- A call that ran covers what its committed transactions answer for. -/
theorem ran_covers {world : Op → Outside → Prop} {c : Call} {s t : HistoryStore} {log : List Op}
    {x : Ending Raised c.Result} (h : Ran world c s log x t) {o : Op} (ho : o ∈ log) {id : String}
    (hid : Delivered o id) : t.covered id = true := by
  refine Runs.of_mem_log (K := fun s => s.covered id = true) ?_ ?_ h ho
  · exact fun i s r s' _ hx => exec_covers hx hid
  · exact fun o' i s r s' _ hx hs => (exec_grows hx).covers id hs

theorem ran_grows {world : Op → Outside → Prop} {c : Call} {s t : HistoryStore} {log : List Op}
    {x : Ending Raised c.Result} (h : Ran world c s log x t) : Grows s t := by
  refine Runs.rel (R := Grows) Grows.refl (fun _ _ _ => Grows.trans) ?_ h (Prog.uses_true _)
  exact fun _ _ _ _ _ _ _ hx => exec_grows hx

theorem Passes.grows {s t : HistoryStore} (h : Passes s t) : Grows s t := by
  induction h with
  | refl => exact .refl s
  | call _ hran ih => exact ih.trans (ran_grows hran)
  | elsewhere _ hgrow _ ih => exact ih.trans hgrow

/-! ### What only reads, and what never moves the cursor -/

/-- The operations that write nothing. -/
def Op.reads : Op → Bool
  | .createRecord _ | .classifyLate _ _ _ _ | .latch _ _ | .recordPass _ _ _
  | .bootstrap _ _ _ _ _ _ => false
  | _ => true

theorem exec_reads {o : Op} {i : Outside} {s t : HistoryStore} {r : o.Res} (ho : o.reads = true)
    (h : exec o i s = .ok (r, t)) : t = s := by
  cases o with
  | readActivities q =>
      simp only [exec] at h
      split at h
      · cases h
        rfl
      · cases h
  | createRecord | classifyLate | latch | recordPass | bootstrap => cases ho
  | _ =>
      cases h
      rfl

/-- The operations of a completeness pass that has classified. -/
def Op.OfJudgement (passId : String) : Op → Prop
  | .recordPass _ _ _ | .bootstrap _ _ _ _ _ _ | .classifyLate _ _ _ _ => False
  | .createRecord record => record.recordId = "activity_history:p1:" ++ passId ∨
      ∃ boundary, record.recordId = "activity_history:baseline:" ++ boundary
  | _ => True

/-- Records of a pass were added, and the session may be another; the rest is as it was. -/
structure Recorded (passId : String) (s t : HistoryStore) : Prop where
  rest : t = { s with
    reconciliationRecords := t.reconciliationRecords
    session := t.session }
  records : Table.ExtendedBy (fun r => r.recordId = "activity_history:p1:" ++ passId ∨
      ∃ boundary, r.recordId = "activity_history:baseline:" ++ boundary)
    s.reconciliationRecords t.reconciliationRecords

namespace Recorded

variable {passId : String} {s t u : HistoryStore}

theorem refl (passId : String) (s : HistoryStore) : Recorded passId s s := ⟨rfl, .refl _ _⟩

theorem trans (h : Recorded passId s t) (h' : Recorded passId t u) : Recorded passId s u where
  rest := by
    have hrest := h'.rest
    rw [h.rest] at hrest
    exact hrest
  records := h.records.trans h'.records

theorem exec {o : Op} {i : Outside} {r : o.Res} (ho : o.OfJudgement passId)
    (h : exec o i s = .ok (r, t)) : Recorded passId s t := by
  have read : o.reads = true → Recorded passId s t := fun hreads => by
    rw [exec_reads hreads h]
    exact .refl passId s
  cases o with
  | createRecord record =>
      cases h
      exact ⟨rfl, .createOnce _ ho⟩
  | latch reason now =>
      cases h
      obtain ⟨session, hs⟩ := latch_eq s reason now
      rw [hs]
      exact ⟨rfl, .refl _ _⟩
  | classifyLate | recordPass | bootstrap => exact ho.elim
  | _ => exact read rfl

end Recorded

theorem uses_then {A : Op → Prop} {o : Op} {β : Type} {f : o.Res → Steps β} (ho : A o)
    (hf : ∀ r, (f r).Uses A) : ((perform o).bind f).Uses A :=
  Prog.Uses.bind hf ((Prog.uses_perform o).2 ho)

theorem readHistory_uses (full : Bool) (boundary cursor : String) (overlapDays : ℕ) :
    (readHistory full boundary cursor overlapDays).Uses fun o => o.reads = true := by
  unfold readHistory
  split
  · exact uses_then rfl fun _ => trivial
  · exact uses_then rfl fun _ => uses_then rfl fun _ => trivial

theorem provenReads_uses (full : Bool) (boundary cursor : String) (overlapDays : ℕ) :
    (provenReads full boundary cursor overlapDays).Uses fun o => o.reads = true := by
  refine Prog.Uses.tryCatch (fun e => ?_) (Prog.Uses.bind (fun _ => ?_) (readHistory_uses _ _ _ _))
  · split <;> trivial
  · trivial

theorem failuresOf_uses (full : Bool) (proof : List RawActivity) (positions baseline : Quantities) :
    (failuresOf full proof positions baseline).Uses fun o => o.reads = true := by
  unfold failuresOf
  split
  · refine Prog.Uses.bind (fun _ => ?_) (Prog.uses_ofExcept _)
    refine uses_then rfl fun _ => Prog.Uses.bind (fun _ => ?_) (Prog.uses_ofExcept _)
    trivial
  · exact Prog.uses_ofExcept _

theorem reads_ofJudgement {passId : String} {o : Op} (h : o.reads = true) :
    o.OfJudgement passId := by
  cases o with
  | createRecord | classifyLate | recordPass | bootstrap => cases h
  | _ => trivial

theorem latchPersisting_uses (failures previous : List String) (now : Instant) (passId : String) :
    (latchPersisting failures previous now).Uses (Op.OfJudgement passId) := by
  refine Prog.Uses.forEach fun key _ => ?_
  split
  · exact (Prog.uses_perform _).2 trivial
  · trivial

theorem recordBaseline_uses (full : Bool) (failures : List String) (history : List RawActivity)
    (now : Instant) (passId : String) :
    (recordBaseline full failures history now).Uses (Op.OfJudgement passId) := by
  unfold recordBaseline
  split
  · refine Prog.Uses.bind (fun _ => ?_) (Prog.uses_ofExcept _)
    exact (Prog.uses_perform _).2 (.inr ⟨_, rfl⟩)
  · trivial

/-- A pass that has read its history classifies, and then adds records of its own. -/
theorem judgeHistory_runs {world : Op → Outside → Prop} {now : Instant} {full : Bool}
    {cursor passId : String} {baseline : Quantities} {r : Reads} {s t : HistoryStore}
    {log : List Op} {x : Ending Raised CompletenessResult}
    (h : Runs exec world (judgeHistory now full cursor passId baseline r) s log x t) :
    t = s ∨ ∃ late u, classifyLate cursor passId now s r.reads = .ok (late, u) ∧
      Recorded passId u t := by
  have hclassify : ∀ {l x u}, Runs exec world (perform (.classifyLate r.reads cursor passId now))
      s l x u → u = s ∨ ∃ late, classifyLate cursor passId now s r.reads = .ok (late, u) := by
    intro l x u h
    rcases Runs.perform_inv h with ⟨_, late, _, hx, _⟩ | ⟨rfl, _⟩
    · exact .inr ⟨late, hx⟩
    · exact .inl rfl
  rcases Runs.bind_inv h with ⟨late, u, l, l', _, hc, hf⟩ | ⟨e, _, hc⟩ | ⟨_, hc⟩
  · obtain ⟨_, i, -, hx⟩ := Runs.perform_returned hc
    refine .inr ⟨late, u, hx, ?_⟩
    refine Runs.rel (R := Recorded passId) (Recorded.refl passId) (fun _ _ _ => Recorded.trans)
      (fun _ _ _ _ _ ho _ hx => Recorded.exec ho hx) hf ?_
    refine Prog.Uses.bind (fun _ => ?_) (Prog.Uses.forEach fun l _ => ?_)
    · refine uses_then trivial fun positions => ?_
      refine Prog.Uses.bind (fun quantities => ?_) (Prog.uses_ofExcept _)
      refine Prog.Uses.bind (fun failures => ?_)
        ((failuresOf_uses _ _ _ _).mono fun _ => reads_ofJudgement)
      refine uses_then trivial fun previous => uses_then (.inl rfl) fun _ => ?_
      refine Prog.Uses.bind (fun _ => ?_) (latchPersisting_uses _ _ _ _)
      refine Prog.Uses.bind (fun _ => ?_) (recordBaseline_uses _ _ _ _ _)
      trivial
    · split
      · exact (Prog.uses_perform _).2 trivial
      · trivial
  · exact (hclassify hc).imp_right fun ⟨late, hx⟩ => ⟨late, t, hx, .refl _ _⟩
  · exact (hclassify hc).imp_right fun ⟨late, hx⟩ => ⟨late, t, hx, .refl _ _⟩

/-- A program that writes in its last operation only, and raises, has written nothing. -/
def Atomic {α : Type} (p : Steps α) : Prop :=
  ∀ s log e t, Runs exec anyAnswer p s log (.raised e) t → t = s

namespace Atomic

theorem perform (o : Op) : Atomic (History.perform o) := by
  intro s log e t h
  rcases Runs.perform_inv h with ⟨_, _, _, _, _, hx | hx⟩ | ⟨rfl, _⟩
  · cases hx
  · cases hx
  · rfl

theorem fail {α : Type} (e : Raised) : Atomic (Prog.fail e : Steps α) := by
  intro s log e' t h
  cases h
  rfl

theorem bind {α β : Type} {p : Steps α} {f : α → Steps β} (hp : p.Uses fun o => o.reads = true)
    (hf : ∀ a, Atomic (f a)) : Atomic (p.bind f) := by
  intro s log e t h
  have hread : ∀ {l x u}, Runs exec anyAnswer p s l x u → u = s := fun h =>
    Runs.unchanged (fun _ _ _ _ _ ho _ hx => exec_reads ho hx) h hp
  rcases Runs.bind_inv h with ⟨a, u, l, l', _, hpa, hfa⟩ | ⟨e', _, hpe⟩ | ⟨hc, _⟩
  · rw [hf a u l' e t hfa, hread hpa]
  · exact hread hpe
  · cases hc

end Atomic

theorem bootstrap_atomic (accountKey accountNumber reason : String) (now : Instant) :
    Atomic (bootstrapFillCursor accountKey accountNumber reason now) := by
  unfold bootstrapFillCursor
  split
  · exact .fail _
  refine .bind ((Prog.uses_perform _).2 rfl) fun evidence => ?_
  split
  · exact .fail _
  refine .bind ((Prog.uses_perform _).2 rfl) fun found => ?_
  split
  · exact .fail _
  refine .bind ((Prog.uses_perform _).2 rfl) fun account => ?_
  split
  · exact .fail _
  refine .bind ((Prog.uses_perform _).2 rfl) fun positions => ?_
  refine .bind ((Prog.uses_perform _).2 rfl) fun raws => ?_
  refine .bind (Prog.uses_ofExcept _) fun _ => .bind (Prog.uses_ofExcept _) fun quantities => ?_
  refine .bind (Prog.uses_ofExcept _) fun failures => ?_
  split
  · exact .fail _
  · refine .bind (Prog.uses_ofExcept _) fun cash => ?_
    split
    · exact .fail _
    · exact .perform _

/-! ### A broker without proof -/

/-- A reading operation, and what goes on with its result. -/
theorem reads_inv {world : Op → Outside → Prop} {o : Op} (ho : o.reads = true) {β : Type}
    {f : o.Res → Steps β} {s t : HistoryStore} {log : List Op} {x : Ending Raised β}
    (h : Runs exec world ((perform o).bind f) s log x t) :
    t = s ∨ ∃ r i l, world o i ∧ exec o i s = .ok (r, s) ∧ Runs exec world (f r) s l x t := by
  have hunchanged : ∀ {l x u}, Runs exec world (perform o) s l x u → u = s := fun h =>
    Runs.unchanged (fun _ _ _ _ _ ho _ hx => exec_reads ho hx) h ((Prog.uses_perform o).2 ho)
  rcases Runs.bind_inv h with ⟨r, u, l, l', _, hr, hf⟩ | ⟨e, _, hr⟩ | ⟨_, hr⟩
  · obtain rfl := hunchanged hr
    obtain ⟨_, i, hw, hx⟩ := Runs.perform_returned hr
    exact .inr ⟨r, i, l', hw, hx, hf⟩
  · exact .inl (hunchanged hr)
  · exact .inl (hunchanged hr)

/-- The pages of the activities are not proven, so nothing goes on from them. -/
theorem unproven_read {q : Query} {β : Type} {f : List RawActivity → Steps β} {s t : HistoryStore}
    {log : List Op} {x : Ending Raised β}
    (h : Runs exec Unproven ((perform (.readActivities q)).bind f) s log x t) : t = s := by
  rcases reads_inv rfl h with ht | ⟨r, i, l, hw, hx, _⟩
  · exact ht
  · simp only [exec, show i.proven = false from hw] at hx
    cases hx

theorem readHistory_unproven {unread : Query → Prop} {full : Bool} {boundary cursor : String}
    {overlapDays : ℕ} (hunread : ∃ q ∈ queriesOf full boundary cursor overlapDays, unread q)
    {s t : HistoryStore} {log : List Op} {r : Reads} :
    ¬ Runs exec (UnprovenAt unread) (readHistory full boundary cursor overlapDays) s log
      (.returned r) t := by
  intro h
  obtain ⟨q, hq, hbad⟩ := hunread
  -- a read that is not proven has no answer to go on with
  have stuck : ∀ {q s t l r}, unread q →
      ¬ Runs exec (UnprovenAt unread) (perform (.readActivities q)) s l (.returned r) t := by
    intro q s t l r hbad h
    obtain ⟨_, i, hw, hx⟩ := Runs.perform_returned h
    simp only [exec, hw hbad] at hx
    cases hx
  unfold readHistory at h
  cases full with
  | true =>
      obtain rfl := List.mem_singleton.1 hq
      obtain ⟨a, u, l, l', _, hr, _⟩ := Runs.bind_returned h
      exact stuck hbad hr
  | false =>
      obtain ⟨a, u, l, l', _, hr, hf⟩ := Runs.bind_returned h
      obtain ⟨a', u', m, m', _, hr', _⟩ := Runs.bind_returned hf
      rcases List.mem_cons.1 hq with rfl | hq
      · exact stuck hbad hr
      · obtain rfl := List.mem_singleton.1 hq
        exact stuck hbad hr'

/-- A bootstrap over an unproven page changes nothing. -/
theorem bootstrap_unproven {accountKey accountNumber reason : String} {now : Instant}
    {s t : HistoryStore} {log : List Op} {x : Ending Raised Unit}
    (h : Ran Unproven (.bootstrap accountKey accountNumber reason now) s log x t) : t = s := by
  have failed : ∀ {e : Raised} {log : List Op},
      Runs exec Unproven (Prog.fail e : Steps Unit) s log x t → t = s := fun h => by
    cases h <;> rfl
  simp only [Ran, Call.steps, bootstrapFillCursor] at h
  split at h
  · exact failed h
  rcases reads_inv rfl h with ht | ⟨_, _, _, _, _, h⟩
  · exact ht
  split at h
  · exact failed h
  rcases reads_inv rfl h with ht | ⟨_, _, _, _, _, h⟩
  · exact ht
  split at h
  · exact failed h
  rcases reads_inv rfl h with ht | ⟨_, _, _, _, _, h⟩
  · exact ht
  split at h
  · exact failed h
  rcases reads_inv rfl h with ht | ⟨_, _, _, _, _, h⟩
  · exact ht
  · exact unproven_read h

theorem provenReads_unproven {unread : Query → Prop} {full : Bool} {boundary cursor : String}
    {overlapDays : ℕ} (hunread : ∃ q ∈ queriesOf full boundary cursor overlapDays, unread q)
    {s t : HistoryStore} {log : List Op} {r : Reads} :
    ¬ Runs exec (UnprovenAt unread) (provenReads full boundary cursor overlapDays) s log
      (.returned (some r)) t := by
  intro h
  rcases Runs.tryCatch_inv h with ⟨a, _, hp⟩ | ⟨e, v, l, l', _, _, hh⟩ | ⟨hc, _⟩
  · obtain ⟨r, _, _, _, _, hr, _⟩ := Runs.bind_returned hp
    exact readHistory_unproven hunread hr
  · split at hh <;> cases hh
  · cases hc

/-- **What a completeness pass writes**, however it ends: nothing, the record of an unproven read,
or, once all its reads are proven, what it classifies and then records of its own. -/
theorem completeness_runs {world : Op → Outside → Prop} {now : Instant} {full : Bool}
    {overlapDays : ℕ} {s t : HistoryStore} {log : List Op} {x : Ending Raised CompletenessResult}
    (h : Ran world (.completeness now full overlapDays) s log x t) :
    t = s ∨ ((∀ e, x ≠ .raised e) ∧ ∃ cursor passId,
        t = s.createRecord (p1Record .incompleteEvidence [unprovenAll] false cursor passId now)) ∨
      ∃ boundary cursor passId r l, Runs exec world
          (provenReads full boundary cursor overlapDays) s l (.returned (some r)) s ∧
        ∃ late u, classifyLate cursor passId now s r.reads = .ok (late, u) ∧
          Recorded passId u t := by
  rcases reads_inv rfl h with ht | ⟨cursor, _, _, _, _, h⟩
  · exact .inl ht
  rcases reads_inv rfl h with ht | ⟨baseline, _, _, _, _, h⟩
  · exact .inl ht
  -- without a cursor or a baseline the pass is over
  match cursor, baseline, h with
  | none, _, h | some _, none, h => cases h <;> exact .inl rfl
  | some cursor, some (boundary, quantities), h =>
      rcases reads_inv rfl h with ht | ⟨passId, _, _, _, _, h⟩
      · exact .inl ht
      have hreads : ∀ {l y u}, Runs exec world
          (provenReads full boundary cursor overlapDays) s l y u → u = s := fun h =>
        Runs.unchanged (fun _ _ _ _ _ ho _ hx => exec_reads ho hx) h (provenReads_uses _ _ _ _)
      rcases Runs.bind_inv h with ⟨r, u, l, l', _, hr, hf⟩ | ⟨e, _, hr⟩ | ⟨_, hr⟩
      · obtain rfl := hreads hr
        cases r with
        | some r =>
            exact (judgeHistory_runs hf).imp_right fun hwrote =>
              .inr ⟨boundary, cursor, passId, r, l, hr, hwrote⟩
        | none =>
            -- a read that is not proven ends in the record of just that
            have hwrite : ∀ {l y w}, Runs exec world (perform (.createRecord
                (p1Record .incompleteEvidence [unprovenAll] false cursor passId now))) u l y w →
                w = u ∨ ((∀ e, y ≠ .raised e) ∧ w = u.createRecord
                  (p1Record .incompleteEvidence [unprovenAll] false cursor passId now)) := by
              intro l y w h
              rcases Runs.perform_inv h with ⟨_, _, _, hx, _, hy⟩ | ⟨rfl, _⟩
              · cases hx
                refine .inr ⟨fun e he => ?_, rfl⟩
                rcases hy with rfl | rfl <;> cases he
              · exact .inl rfl
            have hend : t = u ∨ ((∀ e, x ≠ .raised e) ∧ t = u.createRecord
                (p1Record .incompleteEvidence [unprovenAll] false cursor passId now)) := by
              rcases Runs.bind_inv hf with ⟨_, v, _, _, _, hc, hd⟩ | ⟨e, _, hc⟩ | ⟨rfl, hc⟩
              · cases hd <;> exact (hwrite hc).imp_right fun hw => ⟨fun _ => by simp, hw.2⟩
              · exact (hwrite hc).imp_right fun hw => absurd rfl (hw.1 e)
              · exact (hwrite hc).imp_right fun hw => ⟨fun _ => by simp, hw.2⟩
            exact hend.imp_right fun ht => .inl ⟨ht.1, cursor, passId, ht.2⟩
      · exact .inl (hreads hr)
      · exact .inl (hreads hr)

/-- A completeness pass one of whose reads is not proven puts that on record, and changes nothing
else. -/
theorem completeness_unproven {unread : Query → Prop} {now : Instant} {full : Bool}
    {overlapDays : ℕ}
    (hunread : ∀ boundary cursor, ∃ q ∈ queriesOf full boundary cursor overlapDays, unread q)
    {s t : HistoryStore} {log : List Op} {x : Ending Raised CompletenessResult}
    (h : Ran (UnprovenAt unread) (.completeness now full overlapDays) s log x t) :
    t = s ∨ ∃ cursor passId,
      t = s.createRecord (p1Record .incompleteEvidence [unprovenAll] false cursor passId now) := by
  rcases completeness_runs h with hsame | hrecord | ⟨boundary, cursor, _, r, l, hr, _⟩
  · exact .inl hsame
  · exact .inr hrecord.2
  · exact absurd hr (provenReads_unproven (hunread boundary cursor))

/-- A completeness pass that raises has changed nothing, or has classified what it read. -/
theorem completeness_raised {now : Instant} {full : Bool} {overlapDays : ℕ} {s t : HistoryStore}
    {log : List Op} {e : Raised}
    (h : Ran anyAnswer (.completeness now full overlapDays) s log (.raised e) t) :
    t = s ∨ ∃ raws cursor passId late u, classifyLate cursor passId now s raws = .ok (late, u) ∧
      Recorded passId u t := by
  rcases completeness_runs h with hsame | ⟨hraised, _⟩ | ⟨_, cursor, passId, r, _, _, hwrote⟩
  · exact .inl hsame
  · exact absurd rfl (hraised e)
  · exact .inr ⟨r.reads, cursor, passId, hwrote⟩

/-- A completeness pass never moves the cursor. -/
theorem completeness_cursor {world : Op → Outside → Prop} {now : Instant} {full : Bool}
    {overlapDays : ℕ} {s t : HistoryStore} {log : List Op} {x : Ending Raised CompletenessResult}
    (h : Ran world (.completeness now full overlapDays) s log x t) : t.cursor = s.cursor := by
  rcases completeness_runs h with rfl | ⟨_, _, _, rfl⟩ |
    ⟨_, _, _, _, _, _, late, u, hlate, hwrote⟩
  · rfl
  · rfl
  · rw [hwrote.rest]
    exact (classifyLate_ok hlate).2.1

/-! ### Every run -/

def Call.isCompleteness : Call → Bool
  | .completeness _ _ _ => true
  | _ => false

/-- What the calls keep to, from some store on. -/
structure CursorSound (s : HistoryStore) : Prop where
  /-- What a committed transaction was given stays covered. -/
  covers : ∀ (c : Call) log x t, Ran anyAnswer c s log x t → ∀ o ∈ log, ∀ id, Delivered o id →
    ∀ u, Passes t u → u.covered id = true
  /-- A record pass over an unproven page changes nothing. -/
  recordPass_unproven : ∀ activities passId now log x t,
    Ran anyAnswer (.recordPass activities false passId now) s log x t → t = s
  /-- A bootstrap over an unproven page changes nothing. -/
  bootstrap_unproven : ∀ accountKey accountNumber reason now log x t,
    Ran Unproven (.bootstrap accountKey accountNumber reason now) s log x t → t = s
  /-- A record pass or a bootstrap that raises has changed nothing. -/
  raised : ∀ (c : Call) log e t, c.isCompleteness = false → Ran anyAnswer c s log (.raised e) t →
    t = s
  /-- A completeness pass leaves the cursor alone, however it ends. -/
  completeness : ∀ now full overlapDays log x t,
    Ran anyAnswer (.completeness now full overlapDays) s log x t → t.cursor = s.cursor
  /-- A completeness pass one of whose reads is not proven adds at most the record of that. -/
  completeness_unproven : ∀ now full overlapDays (unread : Query → Prop) log x t,
    (∀ boundary cursor, ∃ q ∈ queriesOf full boundary cursor overlapDays, unread q) →
      Ran (UnprovenAt unread) (.completeness now full overlapDays) s log x t →
        t = s ∨ ∃ cursor passId, t =
          s.createRecord (p1Record .incompleteEvidence [unprovenAll] false cursor passId now)
  /-- A completeness pass that raises has changed nothing, or has classified what it read and then
  added records of its own at most. -/
  completeness_raised : ∀ now full overlapDays log e t,
    Ran anyAnswer (.completeness now full overlapDays) s log (.raised e) t →
      t = s ∨ ∃ raws cursor passId late u, classifyLate cursor passId now s raws = .ok (late, u) ∧
        Recorded passId u t

def deposit : RawActivity :=
  { id := "1", activityType := "CSD", netAmount := .exact 100 }

def fundedAccount : AccountView := ⟨"A", 100, some 0⟩

/-- What the bootstrap reads of it. -/
def fundedAnswers : List (Except Raised Outside) :=
  [.ok {}, .ok {}, .ok { account := fundedAccount }, .ok {}, .ok { activities := [deposit] },
    .ok {}]

/-- The books after the bootstrap. -/
def bootstrapped : HistoryStore :=
  played exec anyAnswer (bootstrapFillCursor "alpaca:A" "A" "start" 0) {} fundedAnswers

theorem passes_bootstrapped : Passes {} bootstrapped := by
  have hplay : (play exec anyAnswer (bootstrapFillCursor "alpaca:A" "A" "start" 0) {}
      fundedAnswers).isSome := by decide +kernel
  obtain ⟨log, x, hran⟩ := runs_played hplay
  exact .call (c := .bootstrap "alpaca:A" "A" "start" 0) .refl hran

/-- An activity after the deposit. -/
def laterActivity : AlpacaActivity :=
  { activityId := "5", activityType := "FILL", orderId := "o", symbol := "AAPL",
    side := some .buy, qty := some 1, price := some 10, transactionTime := some 6 }

/-- What a completeness pass over unproven pages answers. -/
def unprovenAnswers : List (Except Raised Outside) :=
  [.ok { proven := false }, .ok { proven := false }, .ok { proven := false, uuid := "p" },
    .ok { proven := false }, .ok { proven := false }]

/-- A purchase after the deposit. -/
def purchase : RawActivity :=
  { id := "3", activityType := "FILL", symbol := "AAPL", side := "buy", qty := .exact 1,
    price := .exact 10, transactionTime := some 5 }

/-- What a full completeness pass reads once the purchase is there. -/
def purchaseAnswers : List (Except Raised Outside) :=
  [.ok {}, .ok {}, .ok { uuid := "p" }, .ok { activities := [deposit, purchase] }, .ok {},
    .ok { positions := [("AAPL", 1)] }, .ok { account := { fundedAccount with cash := 90 } },
    .ok {}, .ok {}, .ok {}]

def purchaseSeen : HistoryStore :=
  played exec anyAnswer (completenessPass 0 true 0) bootstrapped purchaseAnswers

def purchasePassed : HistoryStore :=
  played exec anyAnswer (recordPass [laterActivity] true "q" 0) purchaseSeen [.ok {}]

end History

end TradePulse
