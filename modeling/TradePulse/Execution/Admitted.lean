/-
**The executions of an order that are admitted.**

The broker's list of executions only ever grows, but each answer lists it in an order of its own.
What is admitted of an order therefore only depends on how much of the list there was, and what was
admitted once is admitted of every longer list.

Main definitions:

* `admitted` — the executions of an order that are admitted from a list.

Main results:

* `validatedFills_perm` — an answer in any order admits the same executions;
* `admitted_mono` — a longer list admits at least as much;
* `totalQty_le_of_subset` — distinct executions among those admitted have at most their total.
-/

import TradePulse.Execution.Attribution
import Mathlib.Algebra.Order.BigOperators.Group.List
import Mathlib.Data.List.Perm.Subperm

set_option autoImplicit false

namespace TradePulse

open Storage

namespace Attribution

/-- The identifier of an execution. -/
abbrev ValidatedFill.id (v : ValidatedFill) : String := v.activity.activityId

theorem validatedFill_activity {a : BrokerActivity} {intent : TradeIntent} {v : ValidatedFill}
    (h : validatedFill a intent = some v) : v.activity = a := by
  unfold validatedFill at h
  split at h
  · cases h
  split at h
  · cases h
  split at h
  · cases h
  obtain ⟨qty, -, h⟩ := Option.bind_eq_some_iff.1 h
  split at h
  · cases h
  obtain ⟨price, -, h⟩ := Option.bind_eq_some_iff.1 h
  split at h
  · cases h
  obtain ⟨time, -, h⟩ := Option.bind_eq_some_iff.1 h
  cases h
  rfl

theorem validatedFill_qty_pos {a : BrokerActivity} {intent : TradeIntent} {v : ValidatedFill}
    (h : validatedFill a intent = some v) : 0 < v.qty := by
  unfold validatedFill at h
  split at h
  · cases h
  split at h
  · cases h
  split at h
  · cases h
  obtain ⟨qty, -, h⟩ := Option.bind_eq_some_iff.1 h
  split at h
  · cases h
  · rename_i hqty
    obtain ⟨price, -, h⟩ := Option.bind_eq_some_iff.1 h
    split at h
    · cases h
    obtain ⟨time, -, h⟩ := Option.bind_eq_some_iff.1 h
    cases h
    exact not_le.1 hqty

/-- Only the instrument and the side of the intent matter. -/
theorem validatedFill_congr {a : BrokerActivity} {intent intent' : TradeIntent}
    (hasset : intent.asset = intent'.asset) (hside : intent.side = intent'.side) :
    validatedFill a intent = validatedFill a intent' := by
  simp only [validatedFill, hasset, hside]

/-- The executions of an order that are admitted from a list, in the list's order. -/
def admitted (intent : TradeIntent) (orderId : String) (rows : List BrokerActivity) :
    List ValidatedFill :=
  ((rows.filter fun a => a.transactionTime.all fun time => decide (intent.createdAt ≤ time)).filter
    fun a => a.orderId = orderId).filterMap fun a => validatedFill a intent

variable {intent : TradeIntent} {orderId : String} {rows rows' : List BrokerActivity}

theorem mem_admitted {v : ValidatedFill} : v ∈ admitted intent orderId rows ↔ ∃ a ∈ rows,
    (a.transactionTime.all fun time => decide (intent.createdAt ≤ time)) = true ∧
      a.orderId = orderId ∧ validatedFill a intent = some v := by
  simp only [admitted, List.mem_filterMap, List.mem_filter, decide_eq_true_eq]
  constructor
  · rintro ⟨a, ⟨⟨ha, hsince⟩, hid⟩, hv⟩
    exact ⟨a, ha, hsince, hid, hv⟩
  · rintro ⟨a, ha, hsince, hid, hv⟩
    exact ⟨a, ⟨⟨ha, hsince⟩, hid⟩, hv⟩

theorem activity_mem_of_mem_admitted {v : ValidatedFill} (h : v ∈ admitted intent orderId rows) :
    v.activity ∈ rows ∧ v.activity.orderId = orderId ∧
      validatedFill v.activity intent = some v := by
  obtain ⟨a, ha, -, hid, hv⟩ := mem_admitted.1 h
  have hact := validatedFill_activity hv
  subst hact
  exact ⟨ha, hid, hv⟩

theorem qty_pos_of_mem_admitted {v : ValidatedFill} (h : v ∈ admitted intent orderId rows) :
    0 < v.qty :=
  validatedFill_qty_pos (activity_mem_of_mem_admitted h).2.2

/-- **A longer list admits at least as much.** -/
theorem admitted_mono (h : rows <+: rows') :
    admitted intent orderId rows <+: admitted intent orderId rows' := by
  obtain ⟨more, rfl⟩ := h
  simp only [admitted, List.filter_append, List.filterMap_append]
  exact List.prefix_append _ _

/-- **An answer in any order admits the same executions.** -/
theorem validatedFills_perm {current : TradeIntent} (hasset : current.asset = intent.asset)
    (hside : current.side = intent.side) (hcreated : current.createdAt = intent.createdAt)
    (b : Broker) (answer : List BrokerActivity) :
    (validatedFills (b.listing current.createdAt answer) orderId current).Perm
      (admitted intent orderId b.activities.rows) := by
  have hsame : (fun a => validatedFill a current) = fun a => validatedFill a intent :=
    funext fun a => validatedFill_congr hasset hside
  refine (List.perm_insertionSort _ _).trans ?_
  rw [hsame, hcreated]
  exact ((b.listing_perm _ answer).filter _).filterMap _

/-! ### Executions are distinct -/

theorem nodup_activityId (t : Table BrokerActivity) :
    (t.rows.map fun a => a.activityId).Nodup :=
  List.pairwise_map.2 (t.keyed.imp fun h => h.1)

theorem ids_sublist (intent : TradeIntent) : ∀ l : List BrokerActivity,
    ((l.filterMap fun a => validatedFill a intent).map fun v => v.id).Sublist
      (l.map fun a => a.activityId)
  | [] => .slnil
  | a :: l => by
      rw [List.filterMap_cons, List.map_cons]
      cases hv : validatedFill a intent with
      | none => exact (ids_sublist intent l).cons _
      | some v =>
          simp only [List.map_cons, ValidatedFill.id, validatedFill_activity hv]
          exact (ids_sublist intent l).cons_cons _

theorem nodup_admitted (hrows : (rows.map fun a => a.activityId).Nodup) :
    ((admitted intent orderId rows).map fun v => v.id).Nodup := by
  refine hrows.sublist ((ids_sublist intent _).trans ?_)
  exact (List.filter_sublist.trans List.filter_sublist).map BrokerActivity.activityId

theorem eq_of_id_eq {intent' : TradeIntent} {orderId' : String} {b : Broker} {v v' : ValidatedFill}
    (hv : v ∈ admitted intent orderId b.activities.rows)
    (hv' : v' ∈ admitted intent' orderId' b.activities.rows) (h : v.id = v'.id) :
    v.activity = v'.activity ∧ orderId = orderId' := by
  obtain ⟨ha, hid, -⟩ := activity_mem_of_mem_admitted hv
  obtain ⟨ha', hid', -⟩ := activity_mem_of_mem_admitted hv'
  have hact := Table.eq_of_recordId (t := b.activities) ha ha' h
  exact ⟨hact, hid.symm.trans ((congrArg (·.orderId) hact).trans hid')⟩

theorem eq_of_activity_eq {v v' : ValidatedFill} (hv : v ∈ admitted intent orderId rows)
    (hv' : v' ∈ admitted intent orderId rows') (h : v.activity = v'.activity) : v = v' := by
  have hs := (activity_mem_of_mem_admitted hv).2.2
  have hs' := (activity_mem_of_mem_admitted hv').2.2
  rw [h] at hs
  exact Option.some.inj (hs.symm.trans hs')

/-! ### Totals -/

theorem totalQty_perm {l l' : List ValidatedFill} (h : l.Perm l') : totalQty l = totalQty l' :=
  (h.map _).sum_eq

theorem AttributedFills.ofFills_perm {l l' : List ValidatedFill} (h : l.Perm l') :
    AttributedFills.ofFills l = AttributedFills.ofFills l' := by
  simp only [AttributedFills.ofFills, totalQty_perm h, (h.map fun v => v.qty * v.price).sum_eq]

theorem sum_le_totalQty {α : Type} {l : List α} {key : α → String} {qty : α → ℚ}
    {l' : List ValidatedFill} (hnodup : (l.map key).Nodup)
    (hl : ∀ a ∈ l, ∃ v ∈ l', key a = v.id ∧ qty a = v.qty) (hpos : ∀ v ∈ l', 0 ≤ v.qty) :
    (l.map qty).sum ≤ totalQty l' := by
  have hsub : (l.map fun a => (key a, qty a)).Subperm (l'.map fun v => (v.id, v.qty)) := by
    refine List.subperm_of_subset ?_ fun p hp => ?_
    · refine List.Nodup.of_map Prod.fst ?_
      rw [List.map_map]
      exact hnodup
    · obtain ⟨a, ha, rfl⟩ := List.mem_map.1 hp
      obtain ⟨v, hv, hkey, hqty⟩ := hl a ha
      exact List.mem_map.2 ⟨v, hv, by rw [hkey, hqty]⟩
  obtain ⟨m, hperm, hsublist⟩ := hsub
  have hsum := (hperm.map Prod.snd).sum_eq
  simp only [List.map_map, Function.comp_def] at hsum
  rw [← hsum]
  have hle := (hsublist.map Prod.snd).sum_le_sum (M := ℚ) fun q hq => by
    simp only [List.map_map, List.mem_map, Function.comp_apply] at hq
    obtain ⟨v, hv, rfl⟩ := hq
    exact hpos v hv
  simpa [totalQty, List.map_map, Function.comp_def] using hle

end Attribution

end TradePulse
