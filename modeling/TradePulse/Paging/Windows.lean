/-
**Windows on a sorted list.**

A list sorted by a key is read in windows of a fixed length.  The next window starts at the first
entry whose key is not below a bound taken from the last key of the window before.  What a bound
cuts off a sorted list is an initial segment, so everything here is about numbers of entries.

Main definitions:

* `below`, `upTo` — how many entries stay below a bound, or do not exceed it;
* `window`, `next` — a window, and where the one after it starts;
* `Crowded` — as many entries as a window holds, between the bound taken from a key and the key.

Main results:

* `filter_eq_drop` — the entries from a bound on are what is left after those below it;
* `next_mono`, `next_le_of_same` — windows go forward and overlap;
* `crowded_of_stuck` — a window that does not go forward is crowded;
* `next_le_of_crowded` — no window goes beyond the start of a crowd.
-/

import Mathlib.Data.List.Count
import Mathlib.Order.Monotone.Basic
import Mathlib.Order.Lattice

set_option autoImplicit false

namespace Paging

/-- Where a property that holds of an initial segment ends, by the number of entries it holds of. -/
theorem lt_countP_iff {α : Type} {p : α → Bool} {xs : List α}
    (h : xs.Pairwise fun a b => p b = true → p a = true) {i : ℕ} (hi : i < xs.length) :
    i < xs.countP p ↔ p xs[i] = true := by
  induction xs generalizing i with
  | nil => simp at hi
  | cons x xs ih =>
      obtain ⟨hx, hxs⟩ := List.pairwise_cons.1 h
      rw [List.countP_cons]
      cases i with
      | zero =>
          simp only [List.getElem_cons_zero]
          constructor
          · intro hpos
            by_contra hp
            have hnone : xs.countP p = 0 := by
              refine List.countP_eq_zero.2 fun y hy hpy => hp (hx y hy hpy)
            simp [hp, hnone] at hpos
          · intro hp
            simp [hp]
      | succ i =>
          have hi' : i < xs.length := by simpa using hi
          have hrec := ih hxs hi'
          simp only [List.getElem_cons_succ]
          by_cases hp : p x = true
          · rw [if_pos hp, ← hrec]
            omega
          · -- nothing after an entry without the property has it
            have hnone : xs.countP p = 0 := by
              refine List.countP_eq_zero.2 fun y hy hpy => hp (hx y hy hpy)
            have hlater : ¬ p xs[i] = true := fun hpy => hp (hx _ (List.getElem_mem hi') hpy)
            simp [hp, hnone, hlater]

theorem filter_not_eq_drop {α : Type} {p : α → Bool} {xs : List α}
    (h : xs.Pairwise fun a b => p b = true → p a = true) :
    xs.filter (fun x => !p x) = xs.drop (xs.countP p) := by
  induction xs with
  | nil => rfl
  | cons x xs ih =>
      obtain ⟨hx, hxs⟩ := List.pairwise_cons.1 h
      by_cases hp : p x = true
      · simp [hp, ih hxs]
      · have hnone : xs.countP p = 0 := by
          refine List.countP_eq_zero.2 fun y hy hpy => hp (hx y hy hpy)
        have hrest := ih hxs
        rw [hnone, List.drop_zero] at hrest
        simp [hp, hrest, hnone]

section

variable {α κ : Type} [LinearOrder κ] (key : α → κ)

/-- How many entries stay below a bound. -/
def below (xs : List α) (t : κ) : ℕ := xs.countP fun x => key x < t

/-- How many entries do not exceed a bound. -/
def upTo (xs : List α) (t : κ) : ℕ := xs.countP fun x => key x ≤ t

/-- How many entries lie between two bounds, both included. -/
def between (xs : List α) (s t : κ) : ℕ := xs.countP fun x => s ≤ key x ∧ key x ≤ t

variable {key} {xs : List α}

theorem below_le_length (t : κ) : below key xs t ≤ xs.length := List.countP_le_length

theorem upTo_le_length (t : κ) : upTo key xs t ≤ xs.length := List.countP_le_length

theorem below_mono {s t : κ} (h : s ≤ t) : below key xs s ≤ below key xs t := by
  refine List.countP_mono_left fun x _ hx => ?_
  simp only [decide_eq_true_eq] at hx ⊢
  exact hx.trans_le h

/-- The entries up to a bound are those below another and those between the two. -/
theorem below_add_between {s t : κ} (h : s ≤ t) :
    below key xs s + between key xs s t = upTo key xs t := by
  simp only [below, between, upTo]
  induction xs with
  | nil => rfl
  | cons x xs ih =>
      simp only [List.countP_cons, decide_eq_true_eq]
      rcases lt_or_ge (key x) s with hx | hx
      · rw [if_pos hx, if_neg (fun hb => hb.1.not_gt hx), if_pos (hx.le.trans h)]
        omega
      · rw [if_neg hx.not_gt]
        by_cases hxt : key x ≤ t
        · rw [if_pos ⟨hx, hxt⟩, if_pos hxt]
          omega
        · rw [if_neg (fun hb => hxt hb.2), if_neg hxt]
          omega

section Sorted

variable (hsorted : xs.Pairwise fun a b => key a ≤ key b)
include hsorted

theorem lt_below_iff {i : ℕ} (hi : i < xs.length) {t : κ} :
    i < below key xs t ↔ key xs[i] < t := by
  have hseg : xs.Pairwise fun a b => decide (key b < t) = true → decide (key a < t) = true := by
    refine hsorted.imp fun hab hb => ?_
    simp only [decide_eq_true_eq] at hb ⊢
    exact hab.trans_lt hb
  simpa [below] using lt_countP_iff hseg hi

theorem lt_upTo_iff {i : ℕ} (hi : i < xs.length) {t : κ} :
    i < upTo key xs t ↔ key xs[i] ≤ t := by
  have hseg : xs.Pairwise fun a b => decide (key b ≤ t) = true → decide (key a ≤ t) = true := by
    refine hsorted.imp fun hab hb => ?_
    simp only [decide_eq_true_eq] at hb ⊢
    exact hab.trans hb
  simpa [upTo] using lt_countP_iff hseg hi

theorem filter_eq_drop (t : κ) : xs.filter (fun x => t ≤ key x) = xs.drop (below key xs t) := by
  have hseg : xs.Pairwise fun a b => decide (key b < t) = true → decide (key a < t) = true := by
    refine hsorted.imp fun hab hb => ?_
    simp only [decide_eq_true_eq] at hb ⊢
    exact hab.trans_lt hb
  rw [below, ← filter_not_eq_drop hseg]
  refine List.filter_congr fun x _ => ?_
  rw [← decide_not]
  simp only [not_lt]

theorem key_le_key {i j : ℕ} (hij : i ≤ j) (hi : i < xs.length) (hj : j < xs.length) :
    key xs[i] ≤ key xs[j] := by
  rcases hij.eq_or_lt with rfl | hlt
  · exact le_rfl
  · exact List.pairwise_iff_getElem.1 hsorted i j hi hj hlt

end Sorted

/-! ### Windows -/

section Windows

/-- The entries from a place on, as many as a window holds. -/
def window (L : ℕ) (xs : List α) (s : ℕ) : List α := (xs.drop s).take L

theorem length_window {L s : ℕ} : (window L xs s).length = min L (xs.length - s) := by
  simp [window]

theorem getElem_window {L s i : ℕ} (hi : i < (window L xs s).length) (hs : s + i < xs.length) :
    (window L xs s)[i] = xs[s + i] := by
  simp [window]

theorem mem_window_iff {L s : ℕ} {x : α} :
    x ∈ window L xs s ↔ ∃ i, ∃ h : i < xs.length, s ≤ i ∧ i < s + L ∧ xs[i] = x := by
  constructor
  · intro hx
    obtain ⟨i, hi, rfl⟩ := List.mem_iff_getElem.1 hx
    have hlen := hi
    rw [length_window] at hlen
    have hs : s + i < xs.length := by omega
    exact ⟨s + i, hs, by omega, by omega, (getElem_window hi hs).symm⟩
  · rintro ⟨i, hi, hs, hL, rfl⟩
    have hlen : i - s < (window L xs s).length := by
      rw [length_window]
      omega
    have hsum : s + (i - s) = i := by omega
    have hget := getElem_window hlen (by rw [hsum]; exact hi)
    simp only [hsum] at hget
    exact hget ▸ List.getElem_mem hlen

theorem window_succ {s j : ℕ} (h : s + j < xs.length) :
    window (j + 1) xs s = window j xs s ++ [xs[s + j]] := by
  have hlen : j < (xs.drop s).length := by
    rw [List.length_drop]
    omega
  rw [window, List.take_add_one, List.getElem?_eq_getElem hlen, List.getElem_drop]
  rfl

theorem window_of_length_le {L s : ℕ} (h : xs.length ≤ s + L) :
    window L xs s = window (xs.length - s) xs s := by
  have hlen : (xs.drop s).length = xs.length - s := List.length_drop
  rw [window, window, List.take_of_length_le (by omega), List.take_of_length_le (by omega)]

variable (key) (back : κ → κ)

/-- Where the window after one that ends with a key starts. -/
def next (xs : List α) (t : κ) : ℕ := below key xs (back t)

/-- As many entries as a window holds lie between the bound taken from a key and the key. -/
def Crowded (L : ℕ) (xs : List α) (t : κ) : Prop := L ≤ between key xs (back t) t

instance (L : ℕ) (xs : List α) (t : κ) : Decidable (Crowded key back L xs t) := by
  unfold Crowded
  infer_instance

variable {key back}

theorem next_mono (hmono : Monotone back) {t u : κ} (h : t ≤ u) :
    next key back xs t ≤ next key back xs u :=
  below_mono (hmono h)

section Sorted

variable (hsorted : xs.Pairwise fun a b => key a ≤ key b) (hback : ∀ t, back t ≤ t)
include hsorted hback

/-- Entries with the last key of a window are in the next one. -/
theorem next_le_of_same {i : ℕ} (hi : i < xs.length) {t : κ} (h : key xs[i] = t) :
    next key back xs t ≤ i := by
  by_contra hlt
  have hbelow := (lt_below_iff hsorted hi).1 (not_le.1 hlt)
  rw [h] at hbelow
  exact (hback t).not_gt hbelow

/-- A window that ends where it would start again is crowded. -/
theorem crowded_of_stuck {L s : ℕ} (hL : 0 < L) (hi : s + L - 1 < xs.length)
    (hstuck : next key back xs (key xs[s + L - 1]) ≤ s) :
    Crowded key back L xs (key xs[s + L - 1]) := by
  have hsum : below key xs (back (key xs[s + L - 1]))
      + between key xs (back (key xs[s + L - 1])) (key xs[s + L - 1])
        = upTo key xs (key xs[s + L - 1]) := below_add_between (hback _)
  have hupTo := (lt_upTo_iff hsorted hi (t := key xs[s + L - 1])).2 le_rfl
  unfold next at hstuck
  unfold Crowded
  omega

/-- A crowd leaves room for a window from its start on, and its keys. -/
theorem key_le_of_crowded {L : ℕ} {t : κ} (hL : 0 < L)
    (h : Crowded key back L xs t) {s : ℕ} (hs : s ≤ next key back xs t) :
    ∃ hi : s + L - 1 < xs.length, key xs[s + L - 1] ≤ t := by
  have hsum : below key xs (back t) + between key xs (back t) t = upTo key xs t :=
    below_add_between (hback t)
  have hlen : upTo key xs t ≤ xs.length := upTo_le_length t
  unfold Crowded at h
  unfold next at hs
  have hi : s + L - 1 < xs.length := by omega
  exact ⟨hi, (lt_upTo_iff hsorted hi).1 (by omega)⟩

/-- No window goes beyond the start of a crowd. -/
theorem next_le_of_crowded (hmono : Monotone back) {L : ℕ} {t : κ} (hL : 0 < L)
    (h : Crowded key back L xs t) {s : ℕ} (hs : s ≤ next key back xs t)
    (hi : s + L - 1 < xs.length) :
    next key back xs (key xs[s + L - 1]) ≤ next key back xs t := by
  obtain ⟨_, hkey⟩ := key_le_of_crowded hsorted hback hL h hs
  exact next_mono hmono hkey

end Sorted

end Windows

end

end Paging
