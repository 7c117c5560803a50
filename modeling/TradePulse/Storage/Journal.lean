/-
**Journals and their latest entries.**

A journal is a list to which entries are only ever appended.  Often it is not read in the order in
which it was written: its entries carry stamps, and a reader sorts by these.  Where the entries with
some property were appended in the order of their stamps, both orders agree on them, and in
particular on the latest one.

Main definitions:

* `latest` — the last entry with a property;
* `byStamp` — a journal in the order of the stamps.

Main results:

* `latest_append`, `latest_flatMap` — the latest entry of a journal that goes on, and of one whose
  entries were derived from others;
* `latest_byStamp` — **the latest entry by stamp is the one written last, where the stamps follow
  the order of writing**;
* `lookup_foldl_insert` — a dictionary filled from a journal holds the latest entry of each key.
-/

import Mathlib.Data.List.AList
import Mathlib.Data.List.Induction
import Mathlib.Data.List.Sort

set_option autoImplicit false

namespace Storage

variable {α β κ : Type}

/-! ### The latest entry -/

/-- The last entry with a property. -/
def latest (p : α → Bool) (xs : List α) : Option α := xs.reverse.find? p

variable {p : α → Bool} {xs ys : List α} {x : α}

@[simp] theorem latest_nil : latest p [] = none := rfl

theorem latest_append : latest p (xs ++ ys) = (latest p ys).or (latest p xs) := by
  simp only [latest, List.reverse_append, List.find?_append]

@[simp] theorem latest_singleton : latest p [x] = if p x then some x else none := by
  by_cases hp : p x = true <;> simp [latest, hp]

theorem latest_eq_none_iff : latest p xs = none ↔ ∀ x ∈ xs, p x = false := by
  simp [latest]

theorem mem_of_latest (h : latest p xs = some x) : x ∈ xs ∧ p x = true :=
  ⟨List.mem_reverse.1 (List.mem_of_find?_eq_some h), List.find?_some h⟩

theorem latest_filter : latest p (xs.filter p) = latest p xs := by
  simp only [latest, ← List.head?_filter, ← List.filter_reverse, List.filter_filter, Bool.and_self]

/-- The latest of the entries that were selected. -/
theorem latest_of_filter {q : α → Bool} :
    latest p (xs.filter q) = latest (fun x => q x && p x) xs := by
  simp only [latest, ← List.filter_reverse, List.find?_filter, Bool.decide_and, Bool.decide_eq_true]

theorem latest_congr {q : α → Bool} (h : ∀ x ∈ xs, p x = q x) : latest p xs = latest q xs := by
  induction xs using List.reverseRecOn with
  | nil => rfl
  | append_singleton xs x ih =>
      rw [latest_append, latest_append, ih fun y hy => h y (List.mem_append_left _ hy),
        latest_singleton, latest_singleton, h x (by simp)]

/-- The latest entry of a journal whose entries were derived from those of another one. -/
theorem latest_flatMap {f : β → List α} {bs : List β} :
    latest p (bs.flatMap f) =
      (latest (fun b => (latest p (f b)).isSome) bs).bind fun b => latest p (f b) := by
  induction bs using List.reverseRecOn with
  | nil => rfl
  | append_singleton bs b ih =>
      rw [List.flatMap_append, latest_append, latest_append, ih, latest_singleton,
        List.flatMap_cons, List.flatMap_nil, List.append_nil]
      cases h : latest p (f b) with
      | none => simp
      | some a => simp [h]

/-! ### Reading by stamp -/

section ByStamp

variable [LinearOrder κ] {stamp : α → κ}

/-- A journal in the order of the stamps of its entries. -/
def byStamp (stamp : α → κ) (xs : List α) : List α :=
  xs.insertionSort fun a b => stamp a ≤ stamp b

theorem byStamp_perm : (byStamp stamp xs).Perm xs := List.perm_insertionSort _ _

@[simp] theorem mem_byStamp : x ∈ byStamp stamp xs ↔ x ∈ xs := byStamp_perm.mem_iff

theorem pairwise_byStamp : (byStamp stamp xs).Pairwise fun a b => stamp a ≤ stamp b := by
  have : Std.Total fun a b : α => stamp a ≤ stamp b := ⟨fun a b => le_total (stamp a) (stamp b)⟩
  have : IsTrans α fun a b => stamp a ≤ stamp b := ⟨fun _ _ _ => le_trans⟩
  exact List.pairwise_insertionSort _ _

theorem filter_byStamp (h : (xs.filter p).Pairwise fun a b => stamp a < stamp b) :
    (byStamp stamp xs).filter p = xs.filter p := by
  refine List.Perm.eq_of_pairwise (fun a b ha hb (hab : stamp a ≤ stamp b) hba => ?_)
    (pairwise_byStamp.filter p) (h.imp fun hlt => hlt.le) (byStamp_perm.filter p)
  by_contra hne
  have hstrict : stamp a < stamp b ∨ stamp b < stamp a := by
    have : Std.Symm fun a b : α => stamp a < stamp b ∨ stamp b < stamp a := ⟨fun _ _ => Or.symm⟩
    have hboth : (xs.filter p).Pairwise fun a b => stamp a < stamp b ∨ stamp b < stamp a :=
      h.imp fun hlt => .inl hlt
    exact hboth.forall ((byStamp_perm.filter p).mem_iff.1 ha) hb hne
  rcases hstrict with hlt | hlt
  · exact absurd hba (not_le.2 hlt)
  · exact absurd hab (not_le.2 hlt)

/-- **The latest entry by stamp is the one that was written last.** -/
theorem latest_byStamp (h : (xs.filter p).Pairwise fun a b => stamp a < stamp b) :
    latest p (byStamp stamp xs) = latest p xs := by
  rw [← latest_filter, filter_byStamp h, latest_filter]

theorem le_of_latest_byStamp (h : latest p (byStamp stamp xs) = some x) {y : α} (hy : y ∈ xs)
    (hp : p y = true) : stamp y ≤ stamp x := by
  rw [latest, List.find?_eq_some_iff_append] at h
  obtain ⟨-, before, after, heq, hbefore⟩ := h
  have hsorted : (byStamp stamp xs).reverse.Pairwise fun a b => stamp b ≤ stamp a :=
    List.pairwise_reverse.2 pairwise_byStamp
  have hmem : y ∈ (byStamp stamp xs).reverse := List.mem_reverse.2 (mem_byStamp.2 hy)
  rw [heq] at hsorted hmem
  rcases List.mem_append.1 hmem with hmem | hmem
  · exact absurd hp (by simpa using hbefore y hmem)
  · rcases List.mem_cons.1 hmem with rfl | hmem
    · exact le_rfl
    · exact (List.pairwise_cons.1 (List.pairwise_append.1 hsorted).2.1).1 y hmem

end ByStamp

/-! ### A dictionary of latest entries -/

/-- A dictionary filled from those entries of a journal that qualify holds what the latest
qualifying entry of each key says. -/
theorem lookup_foldl_insert [DecidableEq κ] {key : α → κ} {value : α → β} {d : AList fun _ : κ => β}
    {k : κ} :
    (xs.foldl (fun d x => if p x then d.insert (key x) (value x) else d) d).lookup k =
      ((latest (fun x => p x && decide (key x = k)) xs).map value).or (d.lookup k) := by
  induction xs using List.reverseRecOn with
  | nil => simp
  | append_singleton xs x ih =>
      rw [List.foldl_append, List.foldl_cons, List.foldl_nil, latest_append, latest_singleton]
      by_cases hp : p x = true
      · by_cases hk : key x = k
        · subst hk
          simp [hp]
        · rw [if_pos hp, AList.lookup_insert_ne (Ne.symm hk), ih]
          simp [hk]
      · rw [if_neg hp, ih]
        simp [hp]

end Storage
