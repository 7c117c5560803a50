/-
**Draining stocks in order.**

A quantity is taken from a list of stocks, from the first of them as much as it holds, then from
the next, until nothing is left to take or no stock is left.  The stocks have keys; what was taken
is a list of keys with the parts taken.

Main definitions:

* `drain`, `leftover` — what is taken from each stock, and what could not be taken from any.

Main results:

* `sum_drain_add_leftover` — what is taken and what is left over add up to the quantity;
* `mem_drain` — nothing is taken but from a stock, and at most what it holds;
* `drain_in_order` — a stock is touched only when those before it are empty;
* `sum_of_mem` — what was taken from one stock.
-/

import Mathlib.Algebra.BigOperators.Group.List.Basic
import Mathlib.Algebra.Order.Group.MinMax
import Mathlib.Tactic.Abel

set_option autoImplicit false

namespace Storage

variable {κ M : Type} [AddCommGroup M] [LinearOrder M]

/-- Take a quantity from the stocks in their order. -/
def drain : List (κ × M) → M → List (κ × M)
  | [], _ => []
  | (k, a) :: stocks, q => if q ≤ 0 then [] else (k, min q a) :: drain stocks (q - min q a)

/-- What no stock could give. -/
def leftover : List (κ × M) → M → M
  | [], q => q
  | (_, a) :: stocks, q => if q ≤ 0 then q else leftover stocks (q - min q a)

@[simp] theorem drain_nil (q : M) : drain ([] : List (κ × M)) q = [] := rfl

@[simp] theorem leftover_nil (q : M) : leftover ([] : List (κ × M)) q = q := rfl

theorem drain_cons_of_pos {k : κ} {a q : M} {stocks : List (κ × M)} (h : 0 < q) :
    drain ((k, a) :: stocks) q = (k, min q a) :: drain stocks (q - min q a) := by
  simp [drain, not_le.2 h]

theorem drain_of_nonpos {q : M} {stocks : List (κ × M)} (h : q ≤ 0) : drain stocks q = [] := by
  cases stocks with
  | nil => rfl
  | cons s stocks => simp [drain, h]

theorem leftover_of_nonpos {q : M} {stocks : List (κ × M)} (h : q ≤ 0) :
    leftover stocks q = q := by
  cases stocks with
  | nil => rfl
  | cons s stocks => simp [leftover, h]

theorem leftover_cons_of_pos {k : κ} {a q : M} {stocks : List (κ × M)} (h : 0 < q) :
    leftover ((k, a) :: stocks) q = leftover stocks (q - min q a) := by
  simp [leftover, not_le.2 h]

/-- **Nothing is lost.** -/
theorem sum_drain_add_leftover (stocks : List (κ × M)) (q : M) :
    ((drain stocks q).map Prod.snd).sum + leftover stocks q = q := by
  induction stocks generalizing q with
  | nil => simp
  | cons s stocks ih =>
      obtain ⟨k, a⟩ := s
      rcases le_or_gt q 0 with hq | hq
      · rw [drain_of_nonpos hq, leftover_of_nonpos hq]
        simp
      · rw [drain_cons_of_pos hq, leftover_cons_of_pos hq, List.map_cons, List.sum_cons, add_assoc,
          ih]
        abel

theorem leftover_nonneg [IsOrderedAddMonoid M] {stocks : List (κ × M)} {q : M} (hq : 0 ≤ q) : 0 ≤ leftover stocks q := by
  induction stocks generalizing q with
  | nil => exact hq
  | cons s stocks ih =>
      rcases hq.eq_or_lt with rfl | hpos
      · rw [leftover_of_nonpos le_rfl]
      · rw [leftover_cons_of_pos hpos]
        exact ih (sub_nonneg.2 (min_le_left _ _))

/-- **What is taken is taken from a stock**, and is some of what the stock holds. -/
theorem mem_drain {stocks : List (κ × M)} (hstocks : ∀ s ∈ stocks, 0 < s.2) {q : M} {k : κ} {t : M}
    (h : (k, t) ∈ drain stocks q) : 0 < t ∧ ∃ a, (k, a) ∈ stocks ∧ t ≤ a := by
  induction stocks generalizing q with
  | nil => cases h
  | cons s stocks ih =>
      obtain ⟨k', a⟩ := s
      rcases le_or_gt q 0 with hq | hq
      · rw [drain_of_nonpos hq] at h
        cases h
      · rw [drain_cons_of_pos hq] at h
        rcases List.mem_cons.1 h with heq | h
        · cases heq
          exact ⟨lt_min hq (hstocks _ List.mem_cons_self), a, List.mem_cons_self, min_le_right _ _⟩
        · obtain ⟨ht, b, hb, hle⟩ := ih (fun s hs => hstocks s (List.mem_cons_of_mem _ hs)) h
          exact ⟨ht, b, List.mem_cons_of_mem _ hb, hle⟩

theorem keys_drain_first (stocks : List (κ × M)) (q : M) :
    (drain stocks q).map Prod.fst <+: stocks.map Prod.fst := by
  induction stocks generalizing q with
  | nil => simp
  | cons s stocks ih =>
      obtain ⟨k, a⟩ := s
      rcases le_or_gt q 0 with hq | hq
      · rw [drain_of_nonpos hq]
        exact List.nil_prefix
      · rw [drain_cons_of_pos hq]
        exact List.prefix_cons_inj _ |>.2 (ih _)

/-- **In order.**  Where a later stock is touched, an earlier one is taken whole. -/
theorem drain_in_order [IsOrderedAddMonoid M] {stocks : List (κ × M)} (hkeys : (stocks.map Prod.fst).Nodup) (q : M) :
    stocks.Pairwise fun s s' => s'.1 ∈ (drain stocks q).map Prod.fst → s ∈ drain stocks q := by
  induction stocks generalizing q with
  | nil => exact .nil
  | cons s stocks ih =>
      obtain ⟨k, a⟩ := s
      rw [List.map_cons, List.nodup_cons] at hkeys
      rcases le_or_gt q 0 with hq | hq
      · rw [drain_of_nonpos hq]
        exact List.pairwise_of_forall fun _ _ h => by cases h
      · have hrest := ih hkeys.2 (q - min q a)
        rw [drain_cons_of_pos hq]
        refine List.pairwise_cons.2 ⟨fun s hs htouched => ?_, ?_⟩
        · have hne : s.1 ≠ k := fun h => hkeys.1 (List.mem_map.2 ⟨s, hs, h⟩)
          have hlater : s.1 ∈ (drain stocks (q - min q a)).map Prod.fst := by
            simpa [hne] using htouched
          -- something was left to take, so the first stock was smaller than the quantity
          have hleft : 0 < q - min q a := by
            by_contra hle
            rw [drain_of_nonpos (not_lt.1 hle)] at hlater
            cases hlater
          have hmin : min q a = a := by
            rcases min_choice q a with h | h
            · rw [h, sub_self] at hleft
              exact absurd hleft (lt_irrefl _)
            · exact h
          rw [hmin]
          exact List.mem_cons_self
        · refine hrest.imp_of_mem fun {s s'} hs hs' h htouched => ?_
          have hne : s'.1 ≠ k := fun h => hkeys.1 (List.mem_map.2 ⟨s', hs', h⟩)
          exact List.mem_cons_of_mem _ (h (by simpa [hne] using htouched))

omit [LinearOrder M] in
theorem sum_eq_zero_of_forall_ne {ι : Type} [DecidableEq ι] {l : List (κ × M)} {f : κ → ι} {x : ι}
    (h : ∀ p ∈ l, f p.1 ≠ x) : (l.map fun p => if f p.1 = x then p.2 else 0).sum = 0 := by
  refine List.sum_eq_zero fun y hy => ?_
  obtain ⟨p, hp, rfl⟩ := List.mem_map.1 hy
  exact if_neg (h p hp)

omit [LinearOrder M] in
theorem sum_of_mem {ι : Type} [DecidableEq ι] {l : List (κ × M)} {f : κ → ι}
    (hkeys : (l.map fun p => f p.1).Nodup) {p : κ × M} (hp : p ∈ l) :
    (l.map fun s => if f s.1 = f p.1 then s.2 else 0).sum = p.2 := by
  induction l with
  | nil => cases hp
  | cons s l ih =>
      rw [List.map_cons, List.nodup_cons] at hkeys
      rw [List.map_cons, List.sum_cons]
      rcases List.mem_cons.1 hp with rfl | hp
      · have hnone : ∀ t ∈ l, f t.1 ≠ f p.1 := fun t ht h =>
          hkeys.1 (List.mem_map.2 ⟨t, ht, h⟩)
        rw [if_pos rfl, sum_eq_zero_of_forall_ne hnone, add_zero]
      · have hne : f s.1 ≠ f p.1 := fun h => hkeys.1 (List.mem_map.2 ⟨p, hp, h.symm⟩)
        rw [if_neg hne, ih hkeys.2 hp, zero_add]

end Storage
