/-
**The population of open orders** (`broker/alpaca_client.py`, `get_open_orders`).

The broker has no continuation token for open orders, and answers at most
`OPEN_ORDERS_PAGE_LIMIT` of them at a time.  The client reads them oldest first; after a full page
it asks again from one microsecond before that page's last submission, drops what it has seen and
checks that the pages overlap.  Whether the broker takes that bound as included is not documented.

Here the broker is a population that does not change during the scan.  Which of several orders of
one timestamp comes first is the broker's choice, and it does not change either.

Main definitions:

* `getOpenOrders`, `scanFrom`, `readPage`, `turnPage`, `readRow` — the scan, by the number
  of requests it may make, one page, and one row of it;
* `OpenPopulation`, `Bound` — the broker's open orders, and how it reads the bound;
* `OpenPopulation.ScanSound` — what is promised of a scan.

Main results:

* `readPage_window` — what reading a page of the population leads to;
* `scan_ends` — a scan ends, and either returns the whole population or meets a crowd;
* `scanSound_iff` — which scans keep the promise.
-/

import TradePulse.Broker.Types
import TradePulse.Paging.Windows
import TradePulse.Storage.OrderedDict
import Mathlib

set_option autoImplicit false

namespace TradePulse.OpenOrders

open Storage Paging

/-! ### The scan -/

/-- `OPEN_ORDERS_PAGE_LIMIT`. -/
def openOrdersPageLimit : ℕ := 500

/-- What a request comes back with: an error response, something that is no list, or rows. -/
inductive Response
  | failure
  | noList
  | rows (orders : List BrokerOrder)

/-- What ends a scan (`AlpacaDataIntegrityError`, but for the first). -/
inductive ScanError
  /-- `raise_alpaca_error(response, "getOpenOrders")` -/
  | requestFailed
  /-- "open orders response is not a list" -/
  | notAList
  /-- "open orders page of … exceeds the limit of …" -/
  | pageTooLong (rows : ℕ)
  /-- "an open order has no id; …" -/
  | noId
  /-- "open order … appears twice on one page" -/
  | twiceOnPage (id : String)
  /-- "open order … has no submitted_at on a full page; …" -/
  | noSubmittedAt (id : String)
  /-- "open order … at … is outside the request" -/
  | outsideRequest (id : String) (time : Instant)
  /-- "open orders page is not in ascending order at … (… after …)" -/
  | notAscending (id : String) (time latest : Instant)
  /-- "open order … was returned twice with conflicting details" -/
  | conflictingDetails (id : String)
  /-- "open orders continuation does not overlap the previous page (missing …); …" -/
  | noOverlap (missing : List String)
  /-- "a full open orders page has no submitted_at to continue from" -/
  | nothingToContinueFrom
  /-- "… or more open orders share submitted_at …; the population cannot be proven complete" -/
  | sharedSubmission (latest : Instant)
  deriving DecidableEq

/-- Raise when a condition holds. -/
def failIf (p : Prop) [Decidable p] (e : ScanError) : Except ScanError Unit :=
  if p then .error e else .ok ()

/-- What is carried from page to page. -/
structure Scan where
  orders : OrderedDict String BrokerOrder := .empty
  after : Option Instant := none
  boundaryIds : List String := []

/-- What is carried from row to row of a page. -/
structure PageRead where
  orders : OrderedDict String BrokerOrder
  page : List BrokerOrder := []
  latest : Option Instant := none
  new : ℕ := 0

/-- The ids of the rows read so far. -/
def PageRead.pageIds (r : PageRead) : List String := r.page.map fun o => o.brokerOrderId

/-- The checks of a submission time. -/
def checkTime (fullPage : Bool) (after latest : Option Instant) (order : BrokerOrder) :
    Except ScanError (Option Instant) :=
  match order.submittedAt with
  | none => do
      failIf (fullPage = true) (.noSubmittedAt order.brokerOrderId)
      return latest
  | some time => do
      failIf (∃ a ∈ after, time < a) (.outsideRequest order.brokerOrderId time)
      failIf (∃ l ∈ latest, time < l)
        (.notAscending order.brokerOrderId time (latest.getD time))
      return some time

def readRow (fullPage : Bool) (after : Option Instant) (r : PageRead) (order : BrokerOrder) :
    Except ScanError PageRead := do
  failIf (order.brokerOrderId = "") .noId
  failIf (order.brokerOrderId ∈ r.pageIds) (.twiceOnPage order.brokerOrderId)
  let latest ← checkTime fullPage after r.latest order
  let seen := r.orders.get? order.brokerOrderId
  failIf (∃ o ∈ seen, (o.submittedAt, o.symbol, o.side)
      ≠ (order.submittedAt, order.symbol, order.side))
    (.conflictingDetails order.brokerOrderId)
  return {
    orders := r.orders.insert order.brokerOrderId order
    page := r.page ++ [order]
    latest := latest
    new := r.new + if seen = none then 1 else 0 }

/-- What follows a page: the orders found when it was the last one, and where to go on from
otherwise. -/
def turnPage (fullPage : Bool) (r : PageRead) :
    Except ScanError (OrderedDict String BrokerOrder ⊕ Scan) :=
  if fullPage = false then
    .ok (.inl r.orders)
  else
    match r.latest with
    | none => .error .nothingToContinueFrom
    | some latest => do
        failIf (r.new = 0) (.sharedSubmission latest)
        return .inr {
          orders := r.orders
          after := some (latest - 1)
          boundaryIds := (r.page.filter fun o => o.submittedAt = some latest).map
            fun o => o.brokerOrderId }

def readPage (scan : Scan) (rows : List BrokerOrder) :
    Except ScanError (OrderedDict String BrokerOrder ⊕ Scan) := do
  failIf (openOrdersPageLimit < rows.length) (.pageTooLong rows.length)
  let fullPage := decide (rows.length = openOrdersPageLimit)
  let r ← rows.foldlM (readRow fullPage scan.after) { orders := scan.orders }
  let missing := scan.boundaryIds.filter fun id => id ∉ r.pageIds
  failIf (missing ≠ []) (.noOverlap (missing.insertionSort (· ≤ ·)))
  turnPage fullPage r

/-- `datetime.min` in UTC. -/
def datetimeMin : Instant := -62135596800 * 1000000

/-- The key the result is sorted by. -/
def sortKey (o : BrokerOrder) : Instant ×ₗ String :=
  toLex (o.submittedAt.getD datetimeMin, o.brokerOrderId)

/-- `sorted(orders.values(), key=…, reverse=True)`. -/
def newestFirst (orders : List BrokerOrder) : List BrokerOrder :=
  orders.insertionSort fun a b => sortKey b ≤ sortKey a

/-- The loop, within a number of requests; nothing when they do not suffice. -/
def scanFrom (ask : Option Instant → Response) :
    ℕ → Scan → Option (Except ScanError (List BrokerOrder))
  | 0, _ => none
  | requests + 1, scan =>
      match ask scan.after with
      | .failure => some (.error .requestFailed)
      | .noList => some (.error .notAList)
      | .rows rows =>
          match readPage scan rows with
          | .error e => some (.error e)
          | .ok (.inl orders) => some (.ok (newestFirst orders.values))
          | .ok (.inr scan') => scanFrom ask requests scan'

/-- `get_open_orders`. -/
def getOpenOrders (ask : Option Instant → Response) (requests : ℕ) :
    Option (Except ScanError (List BrokerOrder)) :=
  scanFrom ask requests {}

@[simp] theorem failIf_of_not {p : Prop} [Decidable p] {e : ScanError} (h : ¬ p) :
    failIf p e = .ok () := by
  simp [failIf, h]

@[simp] theorem failIf_of {p : Prop} [Decidable p] {e : ScanError} (h : p) :
    failIf p e = .error e := by
  simp [failIf, h]

theorem newestFirst_perm (orders : List BrokerOrder) : (newestFirst orders).Perm orders :=
  List.perm_insertionSort _ orders

theorem newestFirst_pairwise (orders : List BrokerOrder) :
    (newestFirst orders).Pairwise fun a b => sortKey b ≤ sortKey a := by
  have : Std.Total fun a b : BrokerOrder => sortKey b ≤ sortKey a :=
    ⟨fun a b => le_total (sortKey b) (sortKey a)⟩
  have : IsTrans BrokerOrder fun a b => sortKey b ≤ sortKey a :=
    ⟨fun a b c hab hbc => hbc.trans hab⟩
  exact List.pairwise_insertionSort _ orders

/-! ### The broker's side -/

/-- The submission time of an order, which an open order has. -/
def timeOf (o : BrokerOrder) : Instant := o.submittedAt.getD datetimeMin

/-- A population of open orders, in the order in which the broker lists those it is asked for. -/
structure OpenPopulation where
  orders : List BrokerOrder
  ascending : orders.Pairwise fun a b => timeOf a ≤ timeOf b
  submitted : ∀ o ∈ orders, o.submittedAt.isSome
  named : ∀ o ∈ orders, o.brokerOrderId ≠ ""
  distinct : (orders.map fun o => o.brokerOrderId).Nodup

/-- How the broker reads `after`. -/
inductive Bound
  | inclusive | exclusive
  deriving DecidableEq

/-- Whether an order is within a request. -/
def Bound.Within (bound : Bound) (after : Option Instant) (o : BrokerOrder) : Prop :=
  match after, bound with
  | none, _ => True
  | some a, .inclusive => a ≤ timeOf o
  | some a, .exclusive => a < timeOf o

instance (bound : Bound) (after : Option Instant) (o : BrokerOrder) :
    Decidable (bound.Within after o) := by
  unfold Bound.Within
  split <;> infer_instance

/-- From where on the request after a page asks, by the last submission on the page. -/
def Bound.back : Bound → Instant → Instant
  | .inclusive, t => t - 1
  | .exclusive, t => t

theorem Bound.back_le (bound : Bound) (t : Instant) : bound.back t ≤ t := by
  cases bound <;> simp [Bound.back]

theorem Bound.back_mono (bound : Bound) : Monotone bound.back := by
  intro t u h
  cases bound
  · exact Int.sub_le_sub_right h 1
  · exact h

theorem Bound.sub_one_le_back (bound : Bound) (t : Instant) : t - 1 ≤ bound.back t := by
  cases bound <;> simp [Bound.back]

theorem Bound.within_iff (bound : Bound) (t : Instant) (o : BrokerOrder) :
    bound.Within (some (t - 1)) o ↔ bound.back t ≤ timeOf o := by
  cases bound
  · exact Iff.rfl
  · exact Int.sub_one_lt_iff

namespace OpenPopulation

variable (pop : OpenPopulation) (bound : Bound)

/-- What the broker answers: the first orders within the request, as many as a page holds. -/
def page (after : Option Instant) : List BrokerOrder :=
  (pop.orders.filter fun o => bound.Within after o).take openOrdersPageLimit

def ask (after : Option Instant) : Response := .rows (pop.page bound after)

/-- How many orders were submitted between two instants. -/
def submittedBetween (s t : Instant) : ℕ := between timeOf pop.orders s t

/-- How many orders share a submission time. -/
def sharing (t : Instant) : ℕ := pop.submittedBetween t t

/-- The orders in a list are the population, each once and newest first. -/
def Complete (orders : List BrokerOrder) : Prop :=
  orders.Perm pop.orders ∧ orders.Pairwise fun a b => sortKey b ≤ sortKey a

/-- What is promised of a scan: however many requests it may make from some number on, it ends with
one outcome, which is the whole population, or an exception where a page full of orders share one
submission time. -/
def ScanSound : Prop :=
  ∃ outcome, (∃ n, ∀ requests ≥ n, getOpenOrders (pop.ask bound) requests = some outcome) ∧
    ((∃ orders, outcome = .ok orders ∧ pop.Complete orders) ∨
      ((∃ e, outcome = .error e) ∧ ∃ t, openOrdersPageLimit ≤ pop.sharing t))

end OpenPopulation

/-! ### A page of the population -/

namespace OpenPopulation

variable {pop : OpenPopulation} {bound : Bound}

theorem submittedAt_eq {o : BrokerOrder} (h : o ∈ pop.orders) :
    o.submittedAt = some (timeOf o) := by
  obtain ⟨t, ht⟩ := Option.isSome_iff_exists.1 (pop.submitted o h)
  simp [timeOf, ht]

theorem id_inj {i j : ℕ} (hi : i < pop.orders.length) (hj : j < pop.orders.length)
    (h : pop.orders[i].brokerOrderId = pop.orders[j].brokerOrderId) : i = j := by
  have hlen : (pop.orders.map fun o => o.brokerOrderId).length = pop.orders.length :=
    List.length_map _
  have hids : (pop.orders.map fun o => o.brokerOrderId)[i]
      = (pop.orders.map fun o => o.brokerOrderId)[j] := by
    simpa using h
  exact (List.Nodup.getElem_inj_iff pop.distinct).1 hids

theorem page_start : pop.page bound none = window openOrdersPageLimit pop.orders 0 := by
  have hall : (pop.orders.filter fun o => bound.Within none o) = pop.orders :=
    List.filter_eq_self.2 fun o _ => decide_eq_true trivial
  rw [page, hall]
  rfl

theorem page_after (t : Instant) :
    pop.page bound (some (t - 1))
      = window openOrdersPageLimit pop.orders (next timeOf bound.back pop.orders t) := by
  have hfilter : (pop.orders.filter fun o => bound.Within (some (t - 1)) o)
      = pop.orders.filter fun o => bound.back t ≤ timeOf o :=
    List.filter_congr fun o _ => by simp only [bound.within_iff]
  rw [page, hfilter, filter_eq_drop pop.ascending]
  rfl

variable (pop) in
/-- The first orders, as the scan holds them. -/
def held (c : ℕ) : List (String × BrokerOrder) :=
  (pop.orders.take c).map fun o => (o.brokerOrderId, o)

theorem mem_held {c : ℕ} {id : String} {o : BrokerOrder} :
    (id, o) ∈ pop.held c ↔ ∃ i, ∃ h : i < pop.orders.length, i < c ∧ pop.orders[i] = o
      ∧ o.brokerOrderId = id := by
  simp only [held, List.mem_map, Prod.mk.injEq]
  constructor
  · rintro ⟨x, hx, hid, rfl⟩
    obtain ⟨i, hi, rfl⟩ := List.mem_iff_getElem.1 hx
    have hlen := hi
    rw [List.length_take] at hlen
    exact ⟨i, by omega, by omega, by simp, hid⟩
  · rintro ⟨i, hi, hic, rfl, rfl⟩
    refine ⟨pop.orders[i], ?_, rfl, rfl⟩
    exact List.mem_take_iff_getElem.2 ⟨i, by omega, rfl⟩

theorem held_succ {c : ℕ} (h : c < pop.orders.length) :
    pop.held (c + 1) = pop.held c ++ [(pop.orders[c].brokerOrderId, pop.orders[c])] := by
  rw [held, List.take_add_one, List.getElem?_eq_getElem h, List.map_append]
  rfl

theorem get?_held {d : OrderedDict String BrokerOrder} {c i : ℕ} (hd : d.entries = pop.held c)
    (hi : i < pop.orders.length) :
    d.get? pop.orders[i].brokerOrderId = if i < c then some pop.orders[i] else none := by
  split
  · rename_i hic
    rw [OrderedDict.get?_eq_some_iff, hd]
    exact mem_held.2 ⟨i, hi, hic, rfl, rfl⟩
  · rename_i hic
    rw [OrderedDict.get?_eq_none_iff, OrderedDict.mem_keys]
    rintro ⟨o, ho⟩
    rw [hd] at ho
    obtain ⟨j, hj, hjc, rfl, hid⟩ := mem_held.1 ho
    have := id_inj hj hi hid
    omega

theorem insert_held {d : OrderedDict String BrokerOrder} {c i : ℕ} (hd : d.entries = pop.held c)
    (hi : i < pop.orders.length) (hic : i ≤ c) :
    (d.insert pop.orders[i].brokerOrderId pop.orders[i]).entries = pop.held (max c (i + 1)) := by
  have hget := get?_held hd hi
  rcases hic.eq_or_lt with rfl | hlt
  · rw [if_neg (lt_irrefl i)] at hget
    rw [OrderedDict.insert, dif_neg (OrderedDict.get?_eq_none_iff.1 hget)]
    simp only [hd]
    rw [max_eq_right (Nat.le_succ i), held_succ hi]
  · rw [if_pos hlt] at hget
    rw [OrderedDict.insert, dif_pos (OrderedDict.isSome_get?.1 (by rw [hget]; rfl)),
      max_eq_left (by omega), ← hd]
    refine (List.map_congr_left fun e he => ?_).trans (List.map_id' _)
    split
    · rename_i hkey
      -- the entry under the id is the order itself
      have hmem : (e.1, e.2) ∈ d.entries := he
      rw [← OrderedDict.get?_eq_some_iff, hkey, hget] at hmem
      exact Prod.ext hkey.symm (Option.some.inj hmem)
    · rfl

end OpenPopulation

/-! ### Reading a page -/

namespace OpenPopulation

variable {pop : OpenPopulation} {bound : Bound}

/-- A page that starts at the `s`-th order has been read up to its `j`-th row, and the first `c`
orders were held before. -/
structure ReadTo (pop : OpenPopulation) (s c j : ℕ) (r : PageRead) : Prop where
  orders : r.orders.entries = pop.held (max c (s + j))
  page : r.page = window j pop.orders s
  latest : r.latest = if j = 0 then none else pop.orders[s + j - 1]?.map timeOf
  new : r.new = max c (s + j) - c

theorem notMem_pageIds {s c j : ℕ} {r : PageRead} (hr : ReadTo pop s c j r)
    (hj : s + j < pop.orders.length) : pop.orders[s + j].brokerOrderId ∉ r.pageIds := by
  intro hmem
  obtain ⟨o, ho, hid⟩ := List.mem_map.1 hmem
  rw [hr.page] at ho
  obtain ⟨i, hi, _, hij, rfl⟩ := mem_window_iff.1 ho
  have := id_inj hi hj hid
  omega

theorem checkTime_window {s c j : ℕ} {r : PageRead} (hr : ReadTo pop s c j r) (full : Bool)
    {after : Option Instant} (hj : s + j < pop.orders.length)
    (hafter : ∀ a ∈ after, a ≤ timeOf pop.orders[s + j]) :
    checkTime full after r.latest pop.orders[s + j] = .ok (some (timeOf pop.orders[s + j])) := by
  have hwithin : ¬ ∃ a ∈ after, timeOf pop.orders[s + j] < a := by
    rintro ⟨a, ha, hlt⟩
    exact (hafter a ha).not_gt hlt
  have hascending : ¬ ∃ l ∈ r.latest, timeOf pop.orders[s + j] < l := by
    rintro ⟨l, hl, hlt⟩
    rw [hr.latest] at hl
    split at hl
    · cases hl
    · have hbefore : s + (j - 1) < pop.orders.length := by omega
      rw [List.getElem?_eq_getElem (by omega)] at hl
      cases hl
      exact (key_le_key pop.ascending (by omega) (by omega) hj).not_gt hlt
  rw [checkTime, submittedAt_eq (List.getElem_mem hj)]
  simp only [failIf_of_not hwithin, failIf_of_not hascending]
  rfl

theorem readRow_window {s c j : ℕ} {r : PageRead} (hr : ReadTo pop s c j r)
    (full : Bool) {after : Option Instant} (hj : s + j < pop.orders.length)
    (hafter : ∀ a ∈ after, a ≤ timeOf pop.orders[s + j]) :
    ∃ r', readRow full after r pop.orders[s + j] = .ok r' ∧ ReadTo pop s c (j + 1) r' := by
  have hget := get?_held hr.orders hj
  have hsame : ¬ ∃ o ∈ r.orders.get? pop.orders[s + j].brokerOrderId,
      (o.submittedAt, o.symbol, o.side)
        ≠ (pop.orders[s + j].submittedAt, pop.orders[s + j].symbol, pop.orders[s + j].side) := by
    rintro ⟨o, ho, hne⟩
    rw [hget] at ho
    split at ho
    · cases ho
      exact hne rfl
    · cases ho
  refine ⟨{
    orders := r.orders.insert pop.orders[s + j].brokerOrderId pop.orders[s + j]
    page := r.page ++ [pop.orders[s + j]]
    latest := some (timeOf pop.orders[s + j])
    new := r.new + if r.orders.get? pop.orders[s + j].brokerOrderId = none then 1 else 0 }, ?_, ?_⟩
  · rw [readRow]
    simp only [failIf_of_not (pop.named _ (List.getElem_mem hj)),
      failIf_of_not (notMem_pageIds hr hj), checkTime_window hr full hj hafter,
      failIf_of_not hsame]
    rfl
  · constructor
    · rw [insert_held hr.orders hj (by omega)]
      congr 1
      omega
    · rw [window_succ hj, hr.page]
    · rw [if_neg (Nat.succ_ne_zero j), ← Nat.add_assoc, Nat.add_sub_cancel,
        List.getElem?_eq_getElem hj]
      rfl
    · simp only [hr.new, hget]
      split <;> simp <;> omega

theorem foldlM_window {d : OrderedDict String BrokerOrder} {s c : ℕ} (hd : d.entries = pop.held c)
    (hsc : s ≤ c) (full : Bool) {after : Option Instant} (j : ℕ) (hj : s + j ≤ pop.orders.length)
    (hafter : ∀ a ∈ after, ∀ o ∈ window j pop.orders s, a ≤ timeOf o) :
    ∃ r, (window j pop.orders s).foldlM (readRow full after) { orders := d } = .ok r
      ∧ ReadTo pop s c j r := by
  induction j with
  | zero =>
      refine ⟨_, rfl, ?_, rfl, rfl, ?_⟩
      · rw [Nat.add_zero, max_eq_left hsc]
        exact hd
      · simp [hsc]
  | succ j ih =>
      have hlast : s + j < pop.orders.length := by omega
      rw [window_succ hlast] at hafter ⊢
      obtain ⟨r, hr, hread⟩ := ih (by omega) fun a ha o ho =>
        hafter a ha o (List.mem_append_left _ ho)
      obtain ⟨r', hr', hread'⟩ := readRow_window hread full hlast fun a ha =>
        hafter a ha _ (List.mem_append_right _ (List.mem_singleton_self _))
      refine ⟨r', ?_, hread'⟩
      rw [List.foldlM_append, hr]
      simp only [List.foldlM_cons, List.foldlM_nil]
      rw [show (Except.ok r >>= fun r => readRow full after r pop.orders[s + j] >>= pure)
        = readRow full after r pop.orders[s + j] >>= pure from rfl, hr']
      rfl

end OpenPopulation

/-! ### The scan of a population -/

namespace OpenPopulation

variable {pop : OpenPopulation} {bound : Bound}

/-- A scan is about to ask for the page that starts at the `s`-th order, and holds the first `c`. -/
structure Reached (pop : OpenPopulation) (bound : Bound) (s c : ℕ) (scan : Scan) : Prop where
  asked : pop.page bound scan.after = window openOrdersPageLimit pop.orders s
  within : ∀ a ∈ scan.after, ∀ o ∈ window openOrdersPageLimit pop.orders s, a ≤ timeOf o
  held : scan.orders.entries = pop.held c
  start_le : s ≤ c
  overlap : ∀ id ∈ scan.boundaryIds,
    ∃ o ∈ window openOrdersPageLimit pop.orders s, o.brokerOrderId = id
  /-- Either nothing was read yet, or a full page was, and this one follows it. -/
  origin : c = 0 ∨ ∃ s₀ ≤ s, c = s₀ + openOrdersPageLimit ∧
    ∃ _ : s₀ + openOrdersPageLimit - 1 < pop.orders.length,
      s = next timeOf bound.back pop.orders (timeOf pop.orders[s₀ + openOrdersPageLimit - 1])

theorem reached_start : Reached pop bound 0 0 {} where
  asked := page_start
  within := by simp
  held := rfl
  start_le := le_rfl
  overlap := by simp
  origin := .inl rfl

theorem Reached.start_le_length {s c : ℕ} {scan : Scan} (h : Reached pop bound s c scan) :
    s ≤ pop.orders.length := by
  rcases h.origin with h0 | ⟨_, _, _, _, hs⟩
  · have := h.start_le
    omega
  · rw [hs]
    exact below_le_length _

theorem openOrdersPageLimit_pos : 0 < openOrdersPageLimit := by decide

/-- Reading a page of the population comes to the end of the page. -/
theorem readPage_window {s c : ℕ} {scan : Scan} (h : Reached pop bound s c scan) {j : ℕ}
    (hj : j = min openOrdersPageLimit (pop.orders.length - s)) :
    ∃ r, ReadTo pop s c j r ∧
      readPage scan (window openOrdersPageLimit pop.orders s)
        = turnPage (decide (j = openOrdersPageLimit)) r := by
  have hs := h.start_le_length
  have hwindow : window openOrdersPageLimit pop.orders s = window j pop.orders s := by
    rcases le_total openOrdersPageLimit (pop.orders.length - s) with hle | hle
    · rw [hj, min_eq_left hle]
    · rw [hj, min_eq_right hle, window_of_length_le (by omega)]
  have hwithin := h.within
  have hoverlap := h.overlap
  rw [hwindow] at hwithin hoverlap ⊢
  have hlen : (window j pop.orders s).length = j := by
    rw [length_window]
    omega
  obtain ⟨r, hr, hread⟩ := foldlM_window h.held h.start_le (decide (j = openOrdersPageLimit)) j
    (by omega) hwithin
  refine ⟨r, hread, ?_⟩
  have hpage : ¬ openOrdersPageLimit < j := by omega
  have hmissing : (scan.boundaryIds.filter fun id => id ∉ r.pageIds) = [] := by
    refine List.filter_eq_nil_iff.2 fun id hid => ?_
    obtain ⟨o, ho, rfl⟩ := hoverlap id hid
    have : o.brokerOrderId ∈ r.pageIds := by
      rw [PageRead.pageIds, hread.page]
      exact List.mem_map_of_mem ho
    simpa using this
  rw [readPage]
  simp only [hlen, failIf_of_not hpage, hr, bind, Except.bind, hmissing,
    failIf_of_not (not_not.2 (rfl : ([] : List String) = []))]

end OpenPopulation

namespace OpenPopulation

variable {pop : OpenPopulation} {bound : Bound}

theorem values_of_held {d : OrderedDict String BrokerOrder} {c : ℕ} (hd : d.entries = pop.held c)
    (hc : pop.orders.length ≤ c) : d.values = pop.orders := by
  rw [OrderedDict.values, hd, held, List.take_of_length_le hc, List.map_map]
  exact List.map_id _

theorem complete_newestFirst : pop.Complete (newestFirst pop.orders) :=
  ⟨newestFirst_perm _, newestFirst_pairwise _⟩

/-- A page that is not full ends the scan with the whole population. -/
theorem Reached.last {s c : ℕ} {scan : Scan} (h : Reached pop bound s c scan)
    (hend : pop.orders.length < s + openOrdersPageLimit) :
    ∃ d, readPage scan (window openOrdersPageLimit pop.orders s) = .ok (.inl d)
      ∧ d.values = pop.orders := by
  have hs := h.start_le_length
  obtain ⟨r, hr, hread⟩ := readPage_window h rfl
  have hshort : min openOrdersPageLimit (pop.orders.length - s) ≠ openOrdersPageLimit := by omega
  refine ⟨r.orders, ?_, values_of_held hr.orders (by omega)⟩
  rw [hread, decide_eq_false hshort]
  rfl

theorem Reached.full {s c : ℕ} {scan : Scan} (h : Reached pop bound s c scan)
    (hi : s + openOrdersPageLimit - 1 < pop.orders.length) :
    ∃ r, ReadTo pop s c openOrdersPageLimit r ∧
      r.latest = some (timeOf pop.orders[s + openOrdersPageLimit - 1]) ∧
      readPage scan (window openOrdersPageLimit pop.orders s) = turnPage true r := by
  obtain ⟨r, hr, hread⟩ := readPage_window h (j := openOrdersPageLimit) (by omega)
  refine ⟨r, hr, ?_, ?_⟩
  · rw [hr.latest, if_neg openOrdersPageLimit_pos.ne', List.getElem?_eq_getElem hi]
    rfl
  · rw [hread, decide_eq_true rfl]

/-- A full page that brings nothing new ends the scan. -/
theorem Reached.stuck {s c : ℕ} {scan : Scan} (h : Reached pop bound s c scan)
    (hi : s + openOrdersPageLimit - 1 < pop.orders.length) (hc : s + openOrdersPageLimit ≤ c) :
    readPage scan (window openOrdersPageLimit pop.orders s)
      = .error (.sharedSubmission (timeOf pop.orders[s + openOrdersPageLimit - 1])) := by
  obtain ⟨r, hr, hlatest, hread⟩ := h.full hi
  have hnew : r.new = 0 := by
    have := hr.new
    omega
  rw [hread, turnPage, if_neg (by simp), hlatest]
  simp only [failIf_of hnew]
  rfl

/-- A page that ends where the one before did is crowded. -/
theorem Reached.crowded {s c : ℕ} {scan : Scan} (h : Reached pop bound s c scan)
    (hi : s + openOrdersPageLimit - 1 < pop.orders.length) (hc : s + openOrdersPageLimit ≤ c) :
    Crowded timeOf bound.back openOrdersPageLimit pop.orders
      (timeOf pop.orders[s + openOrdersPageLimit - 1]) := by
  have hpos := openOrdersPageLimit_pos
  rcases h.origin with h0 | ⟨s₀, hs₀, hc₀, h₀, hs⟩
  · omega
  · obtain rfl : s₀ = s := by omega
    exact crowded_of_stuck pop.ascending bound.back_le hpos (by omega) hs.ge

/-- A full page that brings something new leads to the next one. -/
theorem Reached.onward {s c : ℕ} {scan : Scan} (h : Reached pop bound s c scan)
    (hi : s + openOrdersPageLimit - 1 < pop.orders.length) (hc : c < s + openOrdersPageLimit) :
    ∃ scan', readPage scan (window openOrdersPageLimit pop.orders s) = .ok (.inr scan') ∧
      Reached pop bound
        (next timeOf bound.back pop.orders (timeOf pop.orders[s + openOrdersPageLimit - 1]))
        (s + openOrdersPageLimit) scan' := by
  have hpos := openOrdersPageLimit_pos
  obtain ⟨r, hr, hlatest, hread⟩ := h.full hi
  have hnew : ¬ r.new = 0 := by
    have := hr.new
    omega
  -- the next page starts no earlier than this one, and where its last submission starts
  have hnext : s ≤ next timeOf bound.back pop.orders
      (timeOf pop.orders[s + openOrdersPageLimit - 1]) := by
    rcases h.origin with h0 | ⟨s₀, hs₀, _, h₀, hs⟩
    · have := h.start_le
      omega
    · have hlater : s₀ + openOrdersPageLimit - 1 ≤ s + openOrdersPageLimit - 1 := by omega
      have hle : next timeOf bound.back pop.orders (timeOf pop.orders[s₀ + openOrdersPageLimit - 1])
          ≤ next timeOf bound.back pop.orders (timeOf pop.orders[s + openOrdersPageLimit - 1]) :=
        next_mono bound.back_mono (key_le_key pop.ascending hlater h₀ hi)
      rw [← hs] at hle
      exact hle
  have hfrom : ∀ i (hlt : i < pop.orders.length),
      timeOf pop.orders[i] = timeOf pop.orders[s + openOrdersPageLimit - 1] →
      next timeOf bound.back pop.orders (timeOf pop.orders[s + openOrdersPageLimit - 1]) ≤ i :=
    fun i hlt => next_le_of_same pop.ascending bound.back_le hlt
  rw [hread, turnPage, if_neg (by simp), hlatest]
  simp only [failIf_of_not hnew]
  refine ⟨_, rfl, ?_, ?_, ?_, ?_, ?_, ?_⟩
  · exact page_after _
  · intro a ha o ho
    cases ha
    obtain ⟨i, hlt, hge, _, rfl⟩ := mem_window_iff.1 ho
    refine (bound.sub_one_le_back _).trans ?_
    have := (lt_below_iff pop.ascending hlt).not.1 hge.not_gt
    exact not_lt.1 this
  · have hmax : max c (s + openOrdersPageLimit) = s + openOrdersPageLimit := by omega
    have horders := hr.orders
    rw [hmax] at horders
    exact horders
  · have := hfrom _ hi rfl
    omega
  · intro id hid
    obtain ⟨o, ho, rfl⟩ := List.mem_map.1 hid
    obtain ⟨hmem, htime⟩ := List.mem_filter.1 ho
    rw [hr.page] at hmem
    obtain ⟨i, hlt, hge, hiL, rfl⟩ := mem_window_iff.1 hmem
    have htime' : pop.orders[i].submittedAt
        = some (timeOf pop.orders[s + openOrdersPageLimit - 1]) := by simpa using htime
    rw [submittedAt_eq (List.getElem_mem hlt), Option.some.injEq] at htime'
    exact ⟨_, mem_window_iff.2 ⟨i, hlt, hfrom i hlt htime', by omega, rfl⟩, rfl⟩
  · exact .inr ⟨s, hnext, rfl, hi, rfl⟩

/-- A scan ends, within as many requests as there are orders left and one more.  It meets a crowd,
or it returns the whole population and no crowd was ahead of it. -/
theorem Reached.ends {s c : ℕ} {scan : Scan} (h : Reached pop bound s c scan) {m : ℕ}
    (hm : pop.orders.length ≤ c + m) :
    ∃ outcome, (∀ requests > m, scanFrom (pop.ask bound) requests scan = some outcome) ∧
      ((∃ t, Crowded timeOf bound.back openOrdersPageLimit pop.orders t ∧
          outcome = .error (.sharedSubmission t)) ∨
        (∃ orders, outcome = .ok orders ∧ pop.Complete orders ∧
          ∀ t, Crowded timeOf bound.back openOrdersPageLimit pop.orders t →
            ¬ s ≤ next timeOf bound.back pop.orders t)) := by
  have hpos := openOrdersPageLimit_pos
  have hask : pop.ask bound scan.after = .rows (window openOrdersPageLimit pop.orders s) :=
    congrArg Response.rows h.asked
  -- by the number of orders that may still be new
  induction m using Nat.strong_induction_on generalizing s c scan with
  | _ m ih =>
      rcases lt_or_ge pop.orders.length (s + openOrdersPageLimit) with hend | hfull
      · obtain ⟨d, hd, hvalues⟩ := h.last hend
        refine ⟨.ok (newestFirst pop.orders), ?_, .inr ⟨_, rfl, complete_newestFirst, ?_⟩⟩
        · intro requests hr
          obtain ⟨k, rfl⟩ := Nat.exists_eq_add_of_lt hr
          simp only [scanFrom, hask, hd, hvalues]
        · intro t ht hle
          obtain ⟨hi, _⟩ := key_le_of_crowded pop.ascending bound.back_le hpos ht hle
          omega
      · have hi : s + openOrdersPageLimit - 1 < pop.orders.length := by omega
        rcases Nat.lt_or_ge c (s + openOrdersPageLimit) with hnew | hstuck
        · obtain ⟨scan', hread, hreached⟩ := h.onward hi hnew
          obtain ⟨outcome, hruns, hcases⟩ := ih (m - 1) (by omega) hreached (by omega)
            (congrArg Response.rows hreached.asked)
          refine ⟨outcome, ?_, hcases.imp_right ?_⟩
          · intro requests hr
            obtain ⟨k, rfl⟩ := Nat.exists_eq_add_of_lt hr
            have hlater := hruns (m + k) (by omega)
            simp only [scanFrom, hask, hread]
            exact hlater
          · rintro ⟨orders, hok, hcomplete, hfree⟩
            refine ⟨orders, hok, hcomplete, fun t ht hle => hfree t ht ?_⟩
            exact next_le_of_crowded pop.ascending bound.back_le bound.back_mono hpos ht hle hi
        · refine ⟨_, fun requests hr => ?_, .inl ⟨_, h.crowded hi hstuck, rfl⟩⟩
          obtain ⟨k, rfl⟩ := Nat.exists_eq_add_of_lt hr
          simp only [scanFrom, hask, h.stuck hi hstuck]

end OpenPopulation

namespace OpenPopulation

variable (pop : OpenPopulation) (bound : Bound)

/-- The scan of a population ends with one outcome: an exception that names a crowd, or the whole
population, and that exactly when there is no crowd. -/
theorem scan_ends :
    ∃ outcome, (∀ requests > pop.orders.length,
        getOpenOrders (pop.ask bound) requests = some outcome) ∧
      ((∃ t, openOrdersPageLimit ≤ pop.submittedBetween (bound.back t) t ∧
          outcome = .error (.sharedSubmission t)) ∨
        (∃ orders, outcome = .ok orders ∧ pop.Complete orders ∧
          ∀ t, ¬ openOrdersPageLimit ≤ pop.submittedBetween (bound.back t) t)) := by
  have hstart : Reached pop bound 0 0 {} := reached_start
  obtain ⟨outcome, hruns, hcases⟩ := hstart.ends (m := pop.orders.length) (by omega)
  refine ⟨outcome, hruns, hcases.imp_right ?_⟩
  rintro ⟨orders, hok, hcomplete, hfree⟩
  exact ⟨orders, hok, hcomplete, fun t ht => hfree t ht (Nat.zero_le _)⟩

/-- Where the bound is included and a scan keeps its promise, a page full of orders within two
microseconds means a page full that share one. -/
theorem exists_sharing_of_scanSound (h : pop.ScanSound .inclusive)
    (hcrowd : ∃ t, openOrdersPageLimit ≤ pop.submittedBetween (t - 1) t) :
    ∃ t, openOrdersPageLimit ≤ pop.sharing t := by
  obtain ⟨outcome, hruns, hcases⟩ := pop.scan_ends .inclusive
  obtain ⟨outcome', ⟨n, hruns'⟩, hsound⟩ := h
  -- both outcomes are that of one long enough run
  have hone : outcome = outcome' := by
    have h₁ := hruns (max n (pop.orders.length + 1)) (by omega)
    have h₂ := hruns' (max n (pop.orders.length + 1)) (le_max_left _ _)
    exact Option.some.inj (h₁.symm.trans h₂)
  subst hone
  obtain ⟨t, ht⟩ := hcrowd
  rcases hsound with ⟨orders, hok, _⟩ | ⟨_, hshare⟩
  · rcases hcases with ⟨_, _, herr⟩ | ⟨_, _, _, hfree⟩
    · rw [hok] at herr
      cases herr
    · exact absurd ht (hfree t)
  · exact hshare

/-- A scan keeps its promise exactly when the broker leaves the bound out, or a page full of orders
within two adjacent microseconds means that a page full of orders share one. -/
theorem scanSound_iff :
    pop.ScanSound bound ↔ bound = .exclusive ∨
      ((∃ t, openOrdersPageLimit ≤ pop.submittedBetween (t - 1) t) →
        ∃ t, openOrdersPageLimit ≤ pop.sharing t) := by
  obtain ⟨outcome, hruns, hcases⟩ := pop.scan_ends bound
  constructor
  · intro h
    cases bound with
    | exclusive => exact .inl rfl
    | inclusive => exact .inr (pop.exists_sharing_of_scanSound h)
  · intro hcond
    refine ⟨outcome, ⟨pop.orders.length + 1, fun requests hr => hruns requests hr⟩, ?_⟩
    rcases hcases with ⟨t, ht, herr⟩ | ⟨orders, hok, hcomplete, _⟩
    · refine .inr ⟨⟨_, herr⟩, ?_⟩
      rcases hcond with rfl | hcrowd
      · exact ⟨t, ht⟩
      · cases bound with
        | exclusive => exact ⟨t, ht⟩
        | inclusive => exact hcrowd ⟨t, ht⟩
    · exact .inl ⟨orders, hok, hcomplete⟩

end OpenPopulation

/-! ### Two microseconds with a page of orders between them -/

/-- An order with an id of its own. -/
def orderAt (i : ℕ) (t : Instant) : BrokerOrder where
  brokerOrderId := String.ofList (List.replicate (i + 1) 'o')
  status := .new
  symbol := "AAPL"
  side := some .buy
  submittedAt := some t

/-- Orders submitted at one instant. -/
def batch (start n : ℕ) (t : Instant) : List BrokerOrder :=
  (List.range n).map fun i => orderAt (start + i) t

theorem mem_batch {start n : ℕ} {t : Instant} {o : BrokerOrder} :
    o ∈ batch start n t ↔ ∃ i < n, orderAt (start + i) t = o := by
  simp [batch]

theorem timeOf_orderAt (i : ℕ) (t : Instant) : timeOf (orderAt i t) = t := rfl

theorem orderAt_id_inj {i j : ℕ} {s t : Instant}
    (h : (orderAt i s).brokerOrderId = (orderAt j t).brokerOrderId) : i = j := by
  have hlists : List.replicate (i + 1) 'o' = List.replicate (j + 1) 'o' := String.ofList_injective h
  simpa using congrArg List.length hlists

theorem between_batch (start n : ℕ) (u s t : Instant) :
    between timeOf (batch start n u) s t = if s ≤ u ∧ u ≤ t then n else 0 := by
  simp only [between, batch, List.countP_map, Function.comp_def, timeOf_orderAt]
  split
  · rename_i h
    simp [h]
  · rename_i h
    simp [h]

/-- Orders submitted at two instants, one after the other. -/
def twoBatches (n m : ℕ) (s t : Instant) (h : s ≤ t) : OpenPopulation where
  orders := batch 0 n s ++ batch n m t
  ascending := by
    rw [List.pairwise_append]
    refine ⟨?_, ?_, ?_⟩
    · exact List.pairwise_map.2 (List.pairwise_of_forall fun _ _ => le_rfl)
    · exact List.pairwise_map.2 (List.pairwise_of_forall fun _ _ => le_rfl)
    · intro a ha b hb
      obtain ⟨i, _, rfl⟩ := mem_batch.1 ha
      obtain ⟨j, _, rfl⟩ := mem_batch.1 hb
      exact h
  submitted := by
    intro o ho
    rcases List.mem_append.1 ho with h | h
    · obtain ⟨i, _, rfl⟩ := mem_batch.1 h
      rfl
    · obtain ⟨i, _, rfl⟩ := mem_batch.1 h
      rfl
  named := by
    intro o ho
    have hname : ∀ i u, (orderAt i u).brokerOrderId ≠ "" := by
      intro i u h
      have hlists : List.replicate (i + 1) 'o' = [] := String.ofList_injective h
      simp at hlists
    rcases List.mem_append.1 ho with h | h
    · obtain ⟨i, _, rfl⟩ := mem_batch.1 h
      exact hname _ _
    · obtain ⟨i, _, rfl⟩ := mem_batch.1 h
      exact hname _ _
  distinct := by
    rw [List.map_append, List.nodup_append]
    have hbatch : ∀ start k u, ((batch start k u).map fun o => o.brokerOrderId).Nodup := by
      intro start k u
      rw [batch, List.map_map]
      refine List.Nodup.map_on (fun i _ j _ hij => ?_) List.nodup_range
      have := orderAt_id_inj hij
      omega
    refine ⟨hbatch _ _ _, hbatch _ _ _, ?_⟩
    intro a ha b hb hab
    obtain ⟨x, hx, rfl⟩ := List.mem_map.1 ha
    obtain ⟨y, hy, rfl⟩ := List.mem_map.1 hb
    obtain ⟨i, hi, rfl⟩ := mem_batch.1 hx
    obtain ⟨j, _, rfl⟩ := mem_batch.1 hy
    have := orderAt_id_inj hab
    omega

theorem submittedBetween_twoBatches (n m : ℕ) (u v : Instant) (h : u ≤ v) (s t : Instant) :
    (twoBatches n m u v h).submittedBetween s t
      = (if s ≤ u ∧ u ≤ t then n else 0) + if s ≤ v ∧ v ≤ t then m else 0 := by
  rw [← between_batch 0 n u s t, ← between_batch n m v s t]
  exact List.countP_append

/-- Three hundred orders at one microsecond and as many at the next. -/
def adjacentBatches : OpenPopulation := twoBatches 300 300 0 1 (by decide)

/-- The scan raises that a page full of orders share a submission time, and no more than three
hundred do. -/
theorem not_scanSound_adjacentBatches :
    ¬ adjacentBatches.ScanSound .inclusive ∧ (∀ t, adjacentBatches.sharing t ≤ 300) ∧
      getOpenOrders (adjacentBatches.ask .inclusive) 601 = some (.error (.sharedSubmission 1)) := by
  have hshare : ∀ t, adjacentBatches.sharing t ≤ 300 := by
    intro t
    have hsum : ∀ t : ℤ, (if t ≤ 0 ∧ 0 ≤ t then 300 else 0) + (if t ≤ 1 ∧ 1 ≤ t then 300 else 0)
        ≤ 300 := by
      intro t
      split <;> split <;> omega
    rw [OpenPopulation.sharing, adjacentBatches, submittedBetween_twoBatches]
    exact hsum t
  have hcrowd : ∀ t, openOrdersPageLimit ≤ adjacentBatches.submittedBetween (t - 1) t ↔ t = 1 := by
    intro t
    have hsum : ∀ t : ℤ, 500 ≤ (if t - 1 ≤ 0 ∧ 0 ≤ t then 300 else 0)
        + (if t - 1 ≤ 1 ∧ 1 ≤ t then 300 else 0) ↔ t = 1 := by
      intro t
      split <;> split <;> omega
    rw [adjacentBatches, submittedBetween_twoBatches]
    exact hsum t
  have hlength : adjacentBatches.orders.length = 600 := by
    simp [adjacentBatches, twoBatches, batch]
  obtain ⟨outcome, hruns, ⟨t, ht, herr⟩ | ⟨_, _, _, hfree⟩⟩ :=
    adjacentBatches.scan_ends .inclusive
  · obtain rfl := (hcrowd t).1 ht
    refine ⟨?_, hshare, herr ▸ hruns 601 (by omega)⟩
    intro hsound
    obtain ⟨t, ht'⟩ := adjacentBatches.exists_sharing_of_scanSound hsound ⟨1, ht⟩
    have hmany := ht'.trans (hshare t)
    exact absurd hmany (by decide)
  · exact absurd ((hcrowd 1).2 rfl) (hfree 1)

end TradePulse.OpenOrders
